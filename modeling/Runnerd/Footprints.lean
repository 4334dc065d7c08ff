import Runnerd.Goroutines

/-!
Which kinds of calls a function of the source can make, whatever it is answered.
-/

namespace Runnerd

open GoText Interaction

inductive Kind where
  | mutex
  | admission
  | slot
  | clock
  | read
  | write (writer : Writer)
  | lease
  | queue
  | launch
  | profile
  | github
  | resolve
  | start
  | recover
  | stop
  | exit
  | record
  deriving DecidableEq, Repr

def Op.kind : Op → Kind
  | .lockRunner _ | .unlockRunner _ => .mutex
  | .lockAdmission | .unlockAdmission => .admission
  | .acquireSlot | .releaseSlot => .slot
  | .now => .clock
  | .readState _ | .readRequest _ | .inFlightCount | .inFlightCountForProfile _
  | .listActiveStates | .listMismatchedCompletedStates _ | .listFailedWorkflowJobStates _ => .read
  | .writeState writer _ => .write writer
  | .releaseLease _ _ => .lease
  | .claimNextRunnable _ _ _ | .retryRequest _ _ | .createRequest _ _ _ _ _ _ => .queue
  | .goStartRunner _ => .launch
  | .getProfile _ | .matchProfile _ _ => .profile
  | .getWorkflowJob _ _ | .listWorkflowRunJobs _ _ | .listRunners _ _ | .removeRunnerByName _ _ _
  | .createRegistrationToken _ _ | .runnerURL _ _ => .github
  | .resolveSandboxService _ | .listDefaultTemplates _ => .resolve
  | .startRunner _ _ => .start
  | .recoverRunner _ _ => .recover
  | .stopRunner _ _ _ => .stop
  | .awaitProcess _ | .closeExit _ | .awaitExit | .offerExitWatch _ | .exitWatchAccepted _ => .exit
  | .recordWorkflowCompleted _ _ => .record

/-- The program makes calls of these kinds only. -/
abbrev Within {α : Type} (kinds : List Kind) (program : Action α) : Prop :=
  Calls (fun op => kinds.contains op.kind = true) program

section Rules
variable {α β : Type} {kinds : List Kind}

theorem within_widen {fewer : List Kind} {program : Action α} (within : Within fewer program)
    (among : fewer.all (kinds.contains ·) = true) : Within kinds program := by
  refine calls_widen within fun op member => ?_
  exact List.all_eq_true.mp among op.kind (List.contains_iff_mem.mp member)

theorem within_seq {fewer : List Kind} {program : Action α} {next : α → Action β}
    (first : Within fewer program) (among : fewer.all (kinds.contains ·) = true)
    (rest : ∀ value, Within kinds (next value)) : Within kinds (program >>= next) :=
  calls_seq (within_widen first among) rest

theorem withRunnerLock_within {id : String} {body : Action α}
    (mutex : kinds.contains .mutex = true)
    (inside : Within kinds body) : Within kinds (withRunnerLock id body) := by
  refine calls_call mutex fun _ => calls_seq inside fun _ => ?_
  exact calls_call mutex fun _ => calls_return

theorem writeStateOrLog_within {writer : Writer} {st : RunnerState}
    (writes : kinds.contains (.write writer) = true) : Within kinds (writeStateOrLog writer st) :=
  calls_call writes fun _ => calls_return

theorem dropLease_within {id workerID : String} (releases : kinds.contains .lease = true) :
    Within kinds (dropLease id workerID) :=
  calls_call releases fun _ => calls_return

end Rules

section Stops
variable (server : Server)

theorem stopSandboxWithTimeout_within (id sandboxID : String) (pid : Nat) :
    Within [.read, .resolve, .stop] (stopSandboxWithTimeout id sandboxID pid) := by
  refine calls_call rfl fun answer => ?_
  cases answer with
  | error err => exact calls_return
  | ok req =>
      refine calls_call rfl fun answer => ?_
      cases answer with
      | error err => exact calls_return
      | ok service => exact calls_last rfl

theorem cleanupGitHubRunner_within (st : RunnerState) :
    Within [.github] (cleanupGitHubRunner st) := by
  unfold cleanupGitHubRunner
  split
  · exact calls_return
  · split
    · exact calls_return
    · exact calls_last rfl

theorem originalWorkflowJobQueued_within (st : RunnerState) :
    Within [.github] (originalWorkflowJobQueued st) := by
  unfold originalWorkflowJobQueued
  split
  · exact calls_return
  · refine calls_call rfl fun answer => ?_
    cases answer with
    | error err => exact calls_return
    | ok job => exact calls_return

theorem githubRunnerBusy_within (st : RunnerState) : Within [.github] (githubRunnerBusy st) := by
  unfold githubRunnerBusy
  dsimp only
  split
  · exact calls_return
  · refine calls_call rfl fun answer => ?_
    cases answer with
    | error err => exact calls_return
    | ok runners => exact calls_return

/-- What a stop does once the row is marked. -/
def stoppingKinds : List Kind :=
  [.read, .resolve, .stop, .github, .clock, .write .stopRetry, .write .stopFailed,
    .write .stopCleanupRetry, .write .stopCleanupFailed, .write .mismatchInspected,
    .write .mismatchRequeued, .write .stopMismatched, .write .stopFinished]

theorem requeueMismatchedWorkflowJob_within (st : RunnerState) (queued : Bool) :
    Within [.write .mismatchInspected, .write .mismatchRequeued]
      (requeueMismatchedWorkflowJob st queued) := by
  unfold requeueMismatchedWorkflowJob
  split
  · refine calls_call rfl fun answer => ?_
    cases answer with
    | error err => exact calls_return
    | ok _ => exact calls_return
  · refine calls_call rfl fun answer => ?_
    cases answer with
    | error err => exact calls_return
    | ok _ => exact calls_return

theorem stopVerdict_within (st : RunnerState) (job : WorkflowJob) :
    Within stoppingKinds (stopVerdict st job) := by
  unfold stopVerdict
  split
  · refine within_seq (originalWorkflowJobQueued_within st) rfl fun queued => ?_
    refine within_seq (requeueMismatchedWorkflowJob_within st _) rfl ?_
    rintro (err | ⟨_ | _, next⟩)
    · exact calls_return
    · refine calls_call rfl fun now => calls_call rfl fun answer => ?_
      cases answer with
      | error err => exact calls_return
      | ok _ => exact calls_return
    · exact calls_return
  · refine calls_call rfl fun now => calls_call rfl fun answer => ?_
    cases answer with
    | error err => exact calls_return
    | ok _ => exact calls_return

theorem stopCleanup_within (st : RunnerState) (job : WorkflowJob) :
    Within stoppingKinds (stopCleanup server st job) := by
  refine within_seq (cleanupGitHubRunner_within st) rfl ?_
  rintro (_ | cleanupErr)
  · exact stopVerdict_within st job
  · refine calls_call rfl fun now => ?_
    split
    · refine calls_call rfl fun answer => ?_
      cases answer with
      | error err => exact calls_return
      | ok _ => exact calls_return
    · refine calls_call rfl fun answer => ?_
      cases answer with
      | error err => exact calls_return
      | ok _ => exact calls_return

theorem stopMarked_within (id : String) (st : RunnerState) (job : WorkflowJob) :
    Within stoppingKinds (stopMarked server id st job) := by
  have cleanup := stopCleanup_within server st job
  unfold stopMarked
  split
  · exact cleanup
  · refine within_seq (stopSandboxWithTimeout_within _ _ _) rfl ?_
    rintro (_ | stopErr)
    · exact cleanup
    · dsimp only
      split
      · exact cleanup
      · refine calls_call rfl fun now => ?_
        split
        · refine calls_call rfl fun answer => ?_
          cases answer with
          | error err => exact calls_return
          | ok _ => exact calls_return
        · refine calls_call rfl fun answer => ?_
          cases answer with
          | error err => exact calls_return
          | ok _ => exact calls_return

/-- What a forced stop does once the row is marked. -/
def forcedKinds : List Kind :=
  [.mutex, .read, .resolve, .stop, .github, .clock, .write .forceStopping, .write .forceStopFailed,
    .write .forceCleanupRetry, .write .forceFailed]

theorem forceCleanup_within (st : RunnerState) (stage reason message : String) :
    Within forcedKinds (forceCleanup server st stage reason message) := by
  refine within_seq (cleanupGitHubRunner_within st) rfl ?_
  rintro (_ | cleanupErr)
  · exact calls_call rfl fun _ => writeStateOrLog_within rfl
  · refine calls_call rfl fun now => ?_
    split
    · exact writeStateOrLog_within rfl
    · exact calls_call rfl fun _ => writeStateOrLog_within rfl

theorem forceMarked_within (id : String) (st : RunnerState) (stage reason message : String) :
    Within forcedKinds (forceMarked server id st stage reason message) := by
  have cleanup := forceCleanup_within server st stage reason message
  unfold forceMarked
  split
  · exact cleanup
  · refine within_seq (stopSandboxWithTimeout_within _ _ _) rfl ?_
    rintro (_ | err)
    · exact cleanup
    · dsimp only
      split
      · exact cleanup
      · exact writeStateOrLog_within rfl

theorem failAndStopRunnerVersion_within (id : String) (expectedVersion : Nat)
    (stage reason message : String) :
    Within forcedKinds (failAndStopRunnerVersion server id expectedVersion stage reason message) := by
  apply withRunnerLock_within rfl
  refine calls_call rfl fun answer => ?_
  cases answer with
  | error err => exact calls_return
  | ok st =>
      dsimp only
      split
      · exact calls_return
      · split
        · exact calls_return
        · refine calls_call rfl fun answer => ?_
          cases answer with
          | error err => exact calls_return
          | ok _ => exact forceMarked_within server id _ stage reason message

theorem retryOrFail_within (id stage : String) (err : GoError) :
    Within [.mutex, .read, .clock, .write .retryOrFail] (retryOrFail server id stage err) := by
  apply withRunnerLock_within rfl
  refine calls_call rfl fun answer => ?_
  cases answer with
  | error err => exact calls_return
  | ok current =>
      dsimp only
      split
      · exact calls_return
      · exact calls_call rfl fun _ => writeStateOrLog_within rfl

theorem markRunnerJobStarted_within (id : String) :
    Within [.mutex, .read, .write .markJobStarted] (markRunnerJobStarted id) := by
  apply withRunnerLock_within rfl
  refine calls_call rfl fun answer => ?_
  cases answer with
  | error err => exact calls_return
  | ok st =>
      dsimp only
      split
      · exact calls_return
      · exact writeStateOrLog_within rfl

end Stops

section Starts
variable (server : Server)

/-- What an attempt does apart from its own two records before it has a
sandbox. -/
def startingKinds : List Kind :=
  [.mutex, .admission, .read, .clock, .lease, .profile, .github, .resolve, .record,
    .write .failStart, .write .deferQueued, .write .completeWithoutSandbox]

theorem deferQueuedRequest_within (id workerID : String) (nextAttempt : Time) :
    Within startingKinds (deferQueuedRequest id workerID nextAttempt) := by
  apply withRunnerLock_within rfl
  refine calls_call rfl fun answer => ?_
  cases answer with
  | error err => exact dropLease_within rfl
  | ok st =>
      dsimp only
      split
      · exact dropLease_within rfl
      · refine calls_call rfl fun answer => ?_
        cases answer with
        | error err => exact dropLease_within rfl
        | ok _ => exact calls_return

theorem startDeferred_within (id workerID : String) :
    Within startingKinds (startDeferred id workerID) := by
  refine calls_call rfl fun _ => calls_call rfl fun _ => calls_call rfl fun now => ?_
  exact deferQueuedRequest_within id workerID _

theorem failStart_within (id : String) (st : RunnerState) (stage : String) (err : GoError) :
    Within startingKinds (failStart server id st stage err) := by
  have fails (st : RunnerState) : Within startingKinds (failStartWith server st stage err) :=
    calls_call rfl fun _ => writeStateOrLog_within rfl
  apply withRunnerLock_within rfl
  refine calls_call rfl fun answer => ?_
  cases answer with
  | error readErr => exact fails st
  | ok current =>
      dsimp only
      split
      · exact dropLease_within rfl
      · exact fails current

theorem completeWithoutSandbox_within (id : String) (job : WorkflowJob) :
    Within startingKinds (completeWithoutSandbox id job) := by
  apply withRunnerLock_within rfl
  refine calls_call rfl fun answer => ?_
  cases answer with
  | error err => exact calls_return
  | ok st =>
      dsimp only
      split
      · exact calls_return
      · refine calls_call rfl fun now => calls_call rfl fun answer => ?_
        cases answer with
        | error err => exact calls_return
        | ok _ => exact calls_last rfl

theorem ensureWorkflowJobStillQueued_within (req : RunnerRequest) :
    Within startingKinds (ensureWorkflowJobStillQueued req) := by
  unfold ensureWorkflowJobStillQueued
  split
  · exact calls_return
  · refine calls_call rfl fun answer => ?_
    cases answer with
    | error err => exact calls_return
    | ok job =>
        dsimp only
        split
        · exact calls_return
        · exact calls_seq (completeWithoutSandbox_within _ job) fun _ => calls_return

theorem resolveTemplate_within (service : SandboxService) (profile : RunnerProfile) :
    Within startingKinds (resolveTemplate service profile) := by
  unfold resolveTemplate
  split
  · exact calls_return
  · split
    · exact calls_return
    · refine calls_call rfl fun answer => ?_
      cases answer with
      | error err => exact calls_return
      | ok templates => exact calls_return

theorem profileAtCapacityFor_within (profile : RunnerProfile) :
    Within startingKinds (profileAtCapacityFor profile) := by
  unfold profileAtCapacityFor
  split
  · exact calls_return
  · refine calls_call rfl fun answer => ?_
    cases answer with
    | error err => exact calls_return
    | ok inFlight => exact calls_return

/-- What an attempt does once it has a sandbox. -/
def recordingKinds : List Kind :=
  [.mutex, .read, .resolve, .stop, .exit, .write .startRunning]

/-- What an attempt does at all. -/
def attemptKinds : List Kind :=
  startingKinds ++ recordingKinds ++ [.start, .slot, .write .startCreating, .write .startSnapshot]

theorem cleanupStartedSandbox_within (id : String) (result : StartResult) :
    Within recordingKinds (cleanupStartedSandbox id result) := by
  unfold cleanupStartedSandbox
  split
  · exact calls_return
  · exact within_seq (stopSandboxWithTimeout_within _ _ _) rfl fun _ => calls_return

theorem startRecorded_within (id : String) (result : StartResult) :
    Within recordingKinds (startRecorded id result) := by
  have cleanup := cleanupStartedSandbox_within id result
  refine calls_call rfl fun _ => calls_call rfl fun answer => ?_
  cases answer with
  | error err => exact calls_call rfl fun _ => cleanup
  | ok current =>
      dsimp only
      split
      · exact calls_call rfl fun _ => cleanup
      · refine calls_call rfl fun answer => ?_
        cases answer with
        | error err => exact calls_call rfl fun _ => cleanup
        | ok _ => exact calls_call rfl fun _ => calls_last rfl

theorem startSandbox_within (id : String) (req : RunnerRequest) (st : RunnerState)
    (profile : RunnerProfile) (service : SandboxService) :
    Within attemptKinds (startSandbox server id req st profile service) := by
  have fails (stage : String) (err : GoError) :
      Within attemptKinds (failStart server id st stage err) :=
    within_widen (failStart_within server id st stage err) rfl
  refine within_seq (resolveTemplate_within service profile) rfl fun template => ?_
  cases template with
  | error err => exact fails _ err
  | ok templateID =>
      refine calls_call rfl fun answer => ?_
      cases answer with
      | error err => exact fails _ err
      | ok token =>
          refine calls_call rfl fun answer => ?_
          cases answer with
          | error err => exact fails _ err
          | ok repositoryURL =>
              refine calls_call rfl fun answer => ?_
              cases answer with
              | error err => exact fails _ err
              | ok result => exact within_widen (startRecorded_within id result) rfl

theorem startCreated_within (id workerID : String) (req : RunnerRequest) (st : RunnerState)
    (profile : RunnerProfile) :
    Within attemptKinds (startCreated server id workerID req st profile) := by
  have fails (st : RunnerState) (stage : String) (err : GoError) :
      Within attemptKinds (failStart server id st stage err) :=
    within_widen (failStart_within server id st stage err) rfl
  refine within_seq (ensureWorkflowJobStillQueued_within req) rfl ?_
  rintro (err | _ | _)
  · exact fails st _ err
  · exact dropLease_within rfl
  · refine calls_call rfl fun answer => ?_
    cases answer with
    | error err => exact fails st _ err
    | ok service =>
        dsimp only
        split
        · refine calls_call rfl fun answer => ?_
          cases answer with
          | error err => exact fails st _ _
          | ok current =>
              refine calls_call rfl fun answer => ?_
              cases answer with
              | error err => exact fails _ _ _
              | ok _ => exact startSandbox_within server id req st profile service
        · exact startSandbox_within server id req st profile service

theorem startAdmitted_within (id workerID : String) (req : RunnerRequest) (st : RunnerState)
    (profile : RunnerProfile) :
    Within attemptKinds (startAdmitted server id workerID req st profile) := by
  refine calls_call rfl fun now => calls_call rfl fun answer => ?_
  cases answer with
  | error err => exact calls_call rfl fun _ => calls_call rfl fun _ => dropLease_within rfl
  | ok _ =>
      refine calls_call rfl fun _ => calls_call rfl fun _ => ?_
      exact startCreated_within server id workerID req _ profile

theorem startRunner_within (id workerID : String) :
    Within attemptKinds (startRunner server id workerID) := by
  have deferred : Within attemptKinds (startDeferred id workerID) :=
    within_widen (startDeferred_within id workerID) rfl
  refine calls_call rfl fun _ => calls_call rfl fun answer => ?_
  cases answer with
  | error err => exact calls_last rfl
  | ok req =>
      refine calls_call rfl fun answer => ?_
      cases answer with
      | error err => exact calls_last rfl
      | ok st =>
          dsimp only
          split
          · exact calls_call rfl fun _ => dropLease_within rfl
          · refine calls_call rfl fun answer => ?_
            cases answer with
            | error err =>
                refine calls_call rfl fun _ => ?_
                exact within_widen (failStart_within server id st _ _) rfl
            | ok profile =>
                refine calls_call rfl fun _ => calls_call rfl fun answer => ?_
                cases answer with
                | error err =>
                    refine calls_call rfl fun _ => calls_call rfl fun _ => ?_
                    exact dropLease_within rfl
                | ok inFlight =>
                    dsimp only
                    split
                    · exact deferred
                    · split
                      · exact startAdmitted_within server id workerID req st profile
                      · refine within_seq (profileAtCapacityFor_within profile) rfl ?_
                        rintro (err | _ | _)
                        · refine calls_call rfl fun _ => calls_call rfl fun _ => ?_
                          exact dropLease_within rfl
                        · exact startAdmitted_within server id workerID req st profile
                        · exact deferred

end Starts

section Exits
variable (server : Server)

def exitKinds : List Kind :=
  [.exit, .mutex, .read, .clock, .github, .resolve, .stop, .write .keepRunning, .write .exited,
    .write .exitedCleanupRetry]

theorem cleanupSandboxAfterExit_within (id : String) (st : RunnerState) :
    Within exitKinds (cleanupSandboxAfterExit id st) := by
  unfold cleanupSandboxAfterExit
  split
  · exact calls_return
  · refine within_seq (stopSandboxWithTimeout_within _ _ _) rfl ?_
    rintro (_ | err)
    · exact calls_return
    · dsimp only
      split
      · exact calls_return
      · exact calls_return

theorem exitCleaned_within (st : RunnerState) (err cleanup : Option GoError) :
    Within exitKinds (exitCleaned server st err cleanup) := by
  refine calls_call rfl fun now => within_seq (cleanupGitHubRunner_within _) rfl ?_
  rintro (_ | cleanupErr)
  · exact writeStateOrLog_within rfl
  · refine calls_call rfl fun now => ?_
    split
    · exact writeStateOrLog_within rfl
    · exact writeStateOrLog_within rfl

theorem exitLocked_within (id : String) (st : RunnerState) (result : ExitResult)
    (err : Option GoError) : Within exitKinds (exitLocked server id st result err) :=
  calls_seq (cleanupSandboxAfterExit_within id _) fun cleanup =>
    exitCleaned_within server _ err cleanup

theorem keepRunnerRunningWhenGitHubBusy_within (id : String) (st : RunnerState)
    (result : ExitResult) (err : Option GoError) :
    Within exitKinds (keepRunnerRunningWhenGitHubBusy id st result err) := by
  refine within_seq (githubRunnerBusy_within st) rfl ?_
  rintro (err | _ | _)
  · exact calls_return
  · exact calls_return
  · apply withRunnerLock_within rfl
    refine calls_call rfl fun answer => ?_
    cases answer with
    | error err => exact calls_return
    | ok latest =>
        dsimp only
        split
        · exact calls_return
        · split
          · exact calls_return
          · refine calls_call rfl fun answer => ?_
            cases answer with
            | error err => exact calls_return
            | ok _ => exact calls_return

theorem runnerExited_within (id : String) (result : ExitResult) (err : Option GoError) :
    Within exitKinds (runnerExited server id result err) := by
  have exits (st : RunnerState) :
      Within exitKinds (do exitLocked server id st result err; unlockRunner id) :=
    calls_seq (exitLocked_within server id st result err) fun _ => calls_last rfl
  refine calls_call rfl fun _ => calls_call rfl fun answer => ?_
  cases answer with
  | error err => exact calls_last rfl
  | ok st =>
      dsimp only
      split
      · exact calls_last rfl
      · split
        · refine calls_call rfl fun _ => ?_
          refine calls_seq (keepRunnerRunningWhenGitHubBusy_within id st result err) fun kept => ?_
          split
          · exact calls_return
          · refine calls_call rfl fun _ => calls_call rfl fun answer => ?_
            cases answer with
            | error err => exact calls_last rfl
            | ok st =>
                dsimp only
                split
                · exact calls_last rfl
                · exact exits st
        · exact exits st

end Exits

section Admitting
variable (server : Server)

def admittingKinds : List Kind := [.admission, .read, .queue, .profile, .github]

theorem enqueueRunnerRequest_within (req : RunnerRequest) (links : GitHubContext) :
    Within admittingKinds (enqueueRunnerRequest req links) := by
  refine calls_call rfl fun _ => calls_call rfl fun answer => ?_
  cases answer with
  | ok st => exact calls_call rfl fun _ => calls_return
  | error err =>
      refine calls_call rfl fun answer => calls_call rfl fun _ => ?_
      cases answer with
      | error err => exact calls_return
      | ok created => exact calls_return

theorem rejectAdmission_within (req : RunnerRequest) (links : GitHubContext) (reason : String) :
    Within admittingKinds (rejectAdmission req links reason) := by
  refine calls_call rfl fun answer => ?_
  cases answer with
  | error err => exact calls_return
  | ok created => exact calls_return

theorem enqueueWorkflowJob_within (repository : String) (installationID : Int) (job : WorkflowJob)
    (links : GitHubContext) :
    Within admittingKinds (enqueueWorkflowJob server repository installationID job links) := by
  unfold enqueueWorkflowJob
  dsimp only
  split
  · exact calls_seq (rejectAdmission_within _ links _) fun _ => calls_return
  · refine calls_call rfl fun answer => ?_
    rcases answer with err | _ | profile
    · exact calls_return
    · exact calls_seq (rejectAdmission_within _ links _) fun _ => calls_return
    · exact enqueueRunnerRequest_within _ links

theorem handleWorkflowRunWebhook_within (event : WorkflowRunEvent) :
    Within admittingKinds (handleWorkflowRunWebhook server event) := by
  unfold handleWorkflowRunWebhook
  split
  · exact calls_return
  · refine calls_call rfl fun answer => ?_
    cases answer with
    | error err => exact calls_return
    | ok jobs =>
        refine calls_each jobs fun job _ => ?_
        split
        · exact calls_return
        · exact calls_seq (enqueueWorkflowJob_within server _ _ job _) fun _ => calls_return

theorem handleCreateRunner_within (input : ManualCreateRequest) (newID : String) :
    Within admittingKinds (handleCreateRunner server input newID) := by
  unfold handleCreateRunner
  dsimp only
  split
  · exact calls_return
  · split
    · exact calls_return
    · split
      · split
        · exact calls_return
        · refine calls_call rfl fun answer => ?_
          rcases answer with err | _ | profile
          · exact calls_return
          · exact calls_return
          · exact calls_seq (enqueueRunnerRequest_within _ _) fun _ => calls_return
      · refine calls_call rfl fun answer => ?_
        cases answer with
        | error err => exact calls_return
        | ok profile =>
            dsimp only
            split
            · exact calls_return
            · exact calls_seq (enqueueRunnerRequest_within _ _) fun _ => calls_return

end Admitting

section Marks

theorem markWorkflowJobInProgress_within (id : String) (job : WorkflowJob) :
    Within [.mutex, .read, .write .markInProgress] (markWorkflowJobInProgress id job) := by
  apply withRunnerLock_within rfl
  refine calls_call rfl fun answer => ?_
  cases answer with
  | error err => exact calls_return
  | ok st =>
      dsimp only
      split
      · exact calls_return
      · split
        · refine calls_call rfl fun answer => ?_
          cases answer with
          | error err => exact calls_return
          | ok _ => exact calls_return
        · exact calls_return

theorem completedWorkflowJobStopID_within (job : WorkflowJob) :
    Within [.read] (completedWorkflowJobStopID job) := by
  unfold completedWorkflowJobStopID
  split
  · exact calls_return
  · split
    · exact calls_return
    · refine calls_call rfl fun answer => ?_
      cases answer with
      | error err => exact calls_return
      | ok st => exact calls_return

theorem workflowJobInProgress_within (job : WorkflowJob) :
    Within [.mutex, .read, .write .markInProgress] (workflowJobInProgress job) := by
  refine within_seq (completedWorkflowJobStopID_within job) rfl fun startID => ?_
  split
  · exact calls_return
  · exact calls_seq (markWorkflowJobInProgress_within startID job) fun _ => calls_return

theorem appendRunnerStdout_within (id text : String) :
    Within [.mutex, .read, .write .markJobStarted] (appendRunnerStdout id text) := by
  unfold appendRunnerStdout
  split
  · exact markRunnerJobStarted_within id
  · exact calls_return

theorem completeIfWorkflowJobCompleted_within (id : String) :
    Within [.mutex, .read, .github, .clock, .write .completeReconciled]
      (completeIfWorkflowJobCompleted id) := by
  refine calls_seq (withRunnerLock_within rfl (calls_last rfl)) fun answer => ?_
  cases answer with
  | error err => exact calls_return
  | ok st =>
      dsimp only
      split
      · exact calls_return
      · split
        · exact calls_return
        · refine calls_call rfl fun answer => ?_
          cases answer with
          | error err => exact calls_return
          | ok job =>
              dsimp only
              split
              · exact calls_return
              · apply withRunnerLock_within rfl
                refine calls_call rfl fun answer => ?_
                cases answer with
                | error err => exact calls_return
                | ok latest =>
                    dsimp only
                    split
                    · exact calls_return
                    · split
                      · exact calls_return
                      · refine calls_call rfl fun now => calls_call rfl fun answer => ?_
                        cases answer with
                        | error err => exact calls_return
                        | ok _ => exact calls_return

end Marks

section Recoveries

theorem requeueInterruptedCreation_within (id : String) (stateVersion : Nat) :
    Within [.mutex, .read, .write .requeueInterrupted]
      (requeueInterruptedCreation id stateVersion) := by
  apply withRunnerLock_within rfl
  refine calls_call rfl fun answer => ?_
  cases answer with
  | error err => exact calls_return
  | ok st =>
      dsimp only
      split
      · exact calls_return
      · refine calls_call rfl fun answer => ?_
        cases answer with
        | error err => exact calls_return
        | ok _ => exact calls_return

theorem reconnect_within (id : String) (stateVersion : Nat) (result : StartResult) :
    Within [.mutex, .read, .exit, .write .recoverReconnected] (reconnect id stateVersion result) := by
  refine calls_call rfl fun _ => calls_seq ?_ fun _ =>
    calls_call rfl fun _ => calls_call rfl fun _ => calls_return
  refine calls_call rfl fun answer => ?_
  cases answer with
  | error err => exact calls_return
  | ok latest =>
      dsimp only
      split
      · exact calls_return
      · refine calls_call rfl fun answer => ?_
        cases answer with
        | error err => exact calls_return
        | ok _ => exact calls_return

end Recoveries

end Runnerd
