import Runnerd.Effects

/-!
`internal/server/server_runner_lifecycle.go`, function by function. Log lines,
durations and gauges are left out; so are the cache credentials, which change
only the start input. A function that the source writes as one body and that
has several remote calls in it is cut into named parts at its branches.
-/

namespace Runnerd

open GoText Interaction

section Calls

def lockRunner (id : String) : Action Unit := ask (.lockRunner id)
def unlockRunner (id : String) : Action Unit := ask (.unlockRunner id)
def currentTime : Action Time := ask .now
def fetchState (id : String) : Action (Except GoError RunnerState) := ask (.readState id)
def fetchRequest (id : String) : Action (Except GoError RunnerRequest) :=
  ask (.readRequest id)
def putState (writer : Writer) (st : RunnerState) : Action (Except GoError Unit) :=
  ask (.writeState writer st)
def dropLease (id workerID : String) : Action Unit := do
  let _ ← ask (.releaseLease id workerID)
def getWorkflowJob (repository : String) (jobID : Int) : Action (Except GoError WorkflowJob) :=
  ask (.getWorkflowJob repository jobID)

/-- `unlock := s.lockRunner(id); defer unlock()`. -/
def withRunnerLock {α : Type} (id : String) (body : Action α) : Action α := do
  lockRunner id
  let value ← body
  unlockRunner id
  return value

def writeStateOrLog (writer : Writer) (st : RunnerState) : Action Unit := do
  let _ ← putState writer st

end Calls

section Stopping
variable (server : Server)

def stopSandboxWithTimeout (id sandboxID : String) (pid : Nat) : Action (Option GoError) := do
  match ← fetchRequest id with
  | .error err => return some (err.wrap "read runner request for sandbox service: ")
  | .ok req =>
      match ← ask (.resolveSandboxService req) with
      | .error err => return some err
      | .ok service => ask (.stopRunner service sandboxID pid)

def cleanupStartedSandbox (id : String) (result : StartResult) : Action Unit := do
  if result.sandboxID = "" then return ()
  else
    let _ ← stopSandboxWithTimeout id result.sandboxID result.pid

def cleanupSandboxAfterExit (id : String) (st : RunnerState) : Action (Option GoError) := do
  if st.sandboxID = "" then return none
  else
    match ← stopSandboxWithTimeout id st.sandboxID st.processPID with
    | none => return none
    | some err => if isSandboxGone err then return none else return some err

def cleanupGitHubRunner (st : RunnerState) : Action (Option GoError) := do
  if trimSpace st.runnerName = "" then return none
  else if trimSpace st.repositoryFullName = "" then return none
  else ask (.removeRunnerByName st.repositoryFullName st.runnerGroup st.runnerName)

def originalWorkflowJobQueued (st : RunnerState) : Action (Except GoError Bool) := do
  if st.workflowJobID = 0 ∨ trimSpace st.repositoryFullName = "" then return .ok false
  else
    match ← getWorkflowJob st.repositoryFullName st.workflowJobID with
    | .error err => return .error err
    | .ok job => return .ok (equalFold (trimSpace job.status) "queued")

/-- The columns a request loses when its original job goes back to the queue. -/
def mismatchRequeuedState (st : RunnerState) : RunnerState :=
  { st with
    status := .queued
    sandboxID := ""
    processPID := 0
    assignedJobID := 0
    assignedJobName := ""
    error := ""
    failureStage := ""
    failureReason := ""
    lastErrorCode := ""
    lastErrorMessage := ""
    lastErrorRetryable := false
    leaseOwner := ""
    leaseExpiresAt := none
    nextRetryAt := none
    creatingAt := none
    runningAt := none
    stoppingAt := none
    completedAt := none
    failedAt := none }

def unassignedState (st : RunnerState) : RunnerState :=
  { st with assignedJobID := 0, assignedJobName := "" }

def requeueMismatchedWorkflowJob (st : RunnerState) (queued : Bool) :
    Action (Except GoError (Bool × RunnerState)) := do
  if queued = false then
    let next := unassignedState st
    match ← putState .mismatchInspected next with
    | .error err => return .error (err.wrap "write mismatched workflow job inspection: ")
    | .ok () => return .ok (false, next.advanced)
  else
    let next := mismatchRequeuedState st
    match ← putState .mismatchRequeued next with
    | .error err => return .error (err.wrap "write mismatched workflow job requeue: ")
    | .ok () => return .ok (true, next.advanced)

def stopMismatchedState (st : RunnerState) (now : Time) : RunnerState :=
  { st with
    status := .completed
    completedAt := some now
    nextRetryAt := none
    lastErrorCode := ""
    lastErrorMessage := ""
    lastErrorRetryable := false
    failureStage := ""
    failureReason := ""
    error := "" }

/-- The end of `stopRunner`: a failure recorded before the stop decides the
verdict, except one of GitHub cleanup. -/
def stopFinishedState (st : RunnerState) (now : Time) : RunnerState :=
  let judged :=
    if st.failureStage ≠ "" ∧ st.failureStage ≠ "cleanup" then
      { st with status := .failed, failedAt := some now }
    else
      { st with
        status := .completed
        completedAt := some now
        failureStage := ""
        failureReason := ""
        error := "" }
  { judged with
    nextRetryAt := none
    lastErrorCode := ""
    lastErrorMessage := ""
    lastErrorRetryable := false }

def stopVerdict (st : RunnerState) (job : WorkflowJob) :
    Action (Except GoError (RunnerState × Bool)) := do
  if workflowJobMismatch st job then
    let queued ← originalWorkflowJobQueued st
    let queued := match queued with
      | .error _ => true
      | .ok queued => queued
    match ← requeueMismatchedWorkflowJob st queued with
    | .error err => return .error err
    | .ok (true, next) => return .ok (next, false)
    | .ok (false, next) =>
        let now ← currentTime
        let st := stopMismatchedState next now
        match ← putState .stopMismatched st with
        | .error err => return .error err
        | .ok () => return .ok (st, false)
  else
    let now ← currentTime
    let st := stopFinishedState st now
    match ← putState .stopFinished st with
    | .error err => return .error err
    | .ok () => return .ok (st, true)

def cleanupFailedState (st : RunnerState) (message : String) : RunnerState :=
  { st with
    status := .failed
    failureStage := "cleanup"
    failureReason := "github_runner_cleanup_failed"
    error := message }

def stopCleanup (st : RunnerState) (job : WorkflowJob) :
    Action (Except GoError (RunnerState × Bool)) := do
  match ← cleanupGitHubRunner st with
  | none => stopVerdict st job
  | some cleanupErr =>
      let now ← currentTime
      match scheduleCleanupRetry server.cfg now st cleanupErr with
      | some next =>
          match ← putState .stopCleanupRetry next with
          | .error err => return .error (err.wrap ("schedule github runner cleanup retry: " ++
              cleanupErr.message ++ "; write stopping state: "))
          | .ok () => return .ok (next.advanced, false)
      | none =>
          match ← putState .stopCleanupFailed (cleanupFailedState st cleanupErr.message) with
          | .error err => return .error (err.wrap ("cleanup github runner: " ++
              cleanupErr.message ++ "; write failed state: "))
          | .ok () => return .error cleanupErr

def stopFailedState (st : RunnerState) (message : String) : RunnerState :=
  { st with
    status := .failed
    failureStage := "stop"
    failureReason := "stop_failed"
    error := message }

def stopMarked (id : String) (st : RunnerState) (job : WorkflowJob) :
    Action (Except GoError (RunnerState × Bool)) := do
  if st.sandboxID = "" then stopCleanup server st job
  else
    match ← stopSandboxWithTimeout id st.sandboxID st.processPID with
    | none => stopCleanup server st job
    | some stopErr =>
        if isSandboxGone stopErr then stopCleanup server st job
        else
          let now ← currentTime
          match scheduleStopRetry server.cfg now st stopErr with
          | some next =>
              match ← putState .stopRetry next with
              | .error err => return .error (err.wrap ("schedule stop retry: " ++
                  stopErr.message ++ "; write stopping state: "))
              | .ok () => return .ok (next.advanced, false)
          | none =>
              match ← putState .stopFailed (stopFailedState st stopErr.message) with
              | .error err => return .error (err.wrap ("stop sandbox: " ++
                  stopErr.message ++ "; write failed state: "))
              | .ok () => return .error stopErr

def stopStoppingState (st : RunnerState) (job : WorkflowJob) : RunnerState :=
  { recordAssignedJob st job with status := .stopping }

def stopLocked (id : String) (job : WorkflowJob) :
    Action (Except GoError (RunnerState × Bool)) := do
  match ← fetchState id with
  | .error err => return .error err
  | .ok st =>
      if workflowJobStopConflictsWithAssignment st job then return .ok (st, false)
      else if st.status = .completed then
        if shouldRecordAssignedJob st job then
          let st := assignJob st job
          match ← putState .stopAssignment st with
          | .error err => return .error (err.wrap "write completed job assignment: ")
          | .ok () => return .ok (st, true)
        else return .ok (st, false)
      else
        let st := stopStoppingState st job
        match ← putState .stopStopping st with
        | .error err => return .error (err.wrap "write stopping state: ")
        | .ok () => stopMarked server id st.advanced job

def stopRunner (id : String) (job : WorkflowJob) :
    Action (Except GoError (RunnerState × Bool)) :=
  withRunnerLock id (stopLocked server id job)

def stopIfExists (id : String) (job : WorkflowJob) : Action Unit := do
  match ← fetchState id with
  | .error _ => return ()
  | .ok _ =>
      let _ ← stopRunner server id job

end Stopping

section Forced
variable (server : Server)

def forceStoppingState (st : RunnerState) (stage reason message : String) : RunnerState :=
  { st with
    status := .stopping
    failureStage := stage
    failureReason := reason
    error := message }

def forceFailedState (st : RunnerState) (stage reason message : String) (now : Time) :
    RunnerState :=
  { st with
    status := .failed
    failedAt := some now
    failureStage := if st.failureStage = "" then stage else st.failureStage
    failureReason := if st.failureReason = "" then reason else st.failureReason
    error := if st.error = "" then message else st.error
    leaseOwner := ""
    leaseExpiresAt := none }

def forceUnregisteredState (st : RunnerState) (message : String) (cleanupErr : GoError) :
    RunnerState :=
  { st with
    failureStage := "cleanup"
    failureReason := "github_runner_cleanup_failed"
    error := appendError message ("github runner cleanup: " ++ cleanupErr.message) }

def forceCleanup (st : RunnerState) (stage reason message : String) : Action Unit := do
  match ← cleanupGitHubRunner st with
  | none =>
      let now ← currentTime
      writeStateOrLog .forceFailed (forceFailedState st stage reason message now)
  | some cleanupErr =>
      let now ← currentTime
      match scheduleCleanupRetry server.cfg now st cleanupErr with
      | some next => writeStateOrLog .forceCleanupRetry next
      | none =>
          let st := forceUnregisteredState st message cleanupErr
          let now ← currentTime
          writeStateOrLog .forceFailed (forceFailedState st stage reason message now)

def forceMarked (id : String) (st : RunnerState) (stage reason message : String) :
    Action Unit := do
  if st.sandboxID = "" then forceCleanup server st stage reason message
  else
    match ← stopSandboxWithTimeout id st.sandboxID st.processPID with
    | none => forceCleanup server st stage reason message
    | some err =>
        if isSandboxGone err then forceCleanup server st stage reason message
        else
          writeStateOrLog .forceStopFailed
            (stopFailedState st ("forced stop failed after " ++ stage ++ ": " ++ err.message))

/-- An expected version of 0 accepts any. -/
def failAndStopRunnerVersion (id : String) (expectedVersion : Nat)
    (stage reason message : String) : Action Unit :=
  withRunnerLock id do
    match ← fetchState id with
    | .error _ => return ()
    | .ok st =>
        if expectedVersion ≠ 0 ∧ st.version ≠ expectedVersion then return ()
        else if st.status = .completed ∨ st.status = .failed then return ()
        else
          let st := forceStoppingState st stage reason message
          match ← putState .forceStopping st with
          | .error _ => return ()
          | .ok () =>
              forceMarked server id st.advanced stage reason message

def failAndStopRunner (id stage reason message : String) : Action Unit :=
  failAndStopRunnerVersion server id 0 stage reason message

def retryOrFail (id stage : String) (err : GoError) : Action Unit :=
  withRunnerLock id do
    match ← fetchState id with
    | .error _ => return ()
    | .ok current =>
        if current.status = .completed ∨ current.status = .failed then return ()
        else
          let now ← currentTime
          writeStateOrLog .retryOrFail (applyFailure server.cfg now current stage err true)

def unleasedState (st : RunnerState) : RunnerState :=
  { st with leaseOwner := "", leaseExpiresAt := none }

def deferredState (st : RunnerState) (nextAttempt : Time) : RunnerState :=
  { unleasedState st with nextRetryAt := some nextAttempt }

def deferQueuedRequest (id workerID : String) (nextAttempt : Time) : Action Unit :=
  withRunnerLock id do
    match ← fetchState id with
    | .error _ => dropLease id workerID
    | .ok st =>
        if st.status ≠ .queued ∨ st.leaseOwner ≠ workerID then dropLease id workerID
        else
          match ← putState .deferQueued (deferredState st nextAttempt) with
          | .error _ => dropLease id workerID
          | .ok () => return ()

end Forced

section Assignment

def markWorkflowJobInProgress (id : String) (job : WorkflowJob) :
    Action (Except GoError RunnerState) :=
  withRunnerLock id do
    match ← fetchState id with
    | .error err => return .error err
    | .ok st =>
        if st.status = .completed ∨ st.status = .stopping then return .ok st
        else if shouldRecordAssignedJob st job then
          let st := assignJob st job
          match ← putState .markInProgress st with
          | .error err => return .error err
          | .ok () => return .ok st
        else return .ok st

def jobStartedState (st : RunnerState) : RunnerState :=
  { st with assignedJobName := runnerJobStartedMarker }

def markRunnerJobStarted (id : String) : Action Unit :=
  withRunnerLock id do
    match ← fetchState id with
    | .error _ => return ()
    | .ok st =>
        if st.assignedJobID ≠ 0 ∨ st.assignedJobName = runnerJobStartedMarker ∨
            st.status = .completed ∨ st.status = .stopping then return ()
        else writeStateOrLog .markJobStarted (jobStartedState st)

def appendRunnerStdout (id text : String) : Action Unit := do
  if contains text "Running job:" || contains text "RUNNERD_JOB_STARTED" then
    markRunnerJobStarted id
  else return ()

end Assignment

section Starting
variable (server : Server)

def failStartWith (st : RunnerState) (stage : String) (err : GoError) : Action Unit := do
  let now ← currentTime
  writeStateOrLog .failStart (applyFailure server.cfg now st stage err true)

/-- `st` is what the caller last had; it is used only when the row cannot be
read again. -/
def failStart (id : String) (st : RunnerState) (stage : String) (err : GoError) : Action Unit :=
  withRunnerLock id do
    match ← fetchState id with
    | .error _ => failStartWith server st stage err
    | .ok current =>
        if current.status = .completed ∨ current.status = .stopping then
          dropLease id server.workerID
        else failStartWith server current stage err

def completeWithoutSandboxState (st : RunnerState) (job : WorkflowJob) (now : Time) : RunnerState :=
  { recordAssignedJob st job with
    status := .completed
    completedAt := some now
    error := ""
    failureStage := ""
    failureReason := ""
    leaseOwner := ""
    leaseExpiresAt := none }

def completeWithoutSandbox (id : String) (job : WorkflowJob) : Action Unit :=
  withRunnerLock id do
    match ← fetchState id with
    | .error _ => return ()
    | .ok st =>
        if st.status = .completed ∨ st.status = .stopping ∨ st.status = .running then return ()
        else
          let now ← currentTime
          let st := completeWithoutSandboxState st job now
          match ← putState .completeWithoutSandbox st with
          | .error _ => return ()
          | .ok () => ask (.recordWorkflowCompleted st job)

def ensureWorkflowJobStillQueued (req : RunnerRequest) : Action (Except GoError Bool) := do
  if req.jobID = 0 then return .ok true
  else
    match ← getWorkflowJob req.repositoryFullName req.jobID with
    | .error err => return .error err
    | .ok job =>
        if job.status = "queued" then return .ok true
        else
          completeWithoutSandbox req.id job
          return .ok false

def newDefaultTemplateResolutionError (requestedName reason : String) : GoError :=
  { message := "default template " ++ requestedName.quote ++ " cannot be resolved: " ++ reason
    templateReason := some reason }

def namesTemplate (requestedName : String) (template : CatalogTemplate) : Bool :=
  template.names.any fun name =>
    trimSpace name == requestedName ||
      ("/" ++ requestedName).toList.isSuffixOf (trimSpace name).toList

def resolveDefaultTemplateID (requestedName : String) (templates : List CatalogTemplate) :
    Except GoError String :=
  let requestedName := trimSpace requestedName
  let failed reason := .error (newDefaultTemplateResolutionError requestedName reason)
  if requestedName = "" then failed "missing"
  else
    match templates.filter (namesTemplate requestedName) with
    | [] => failed "missing"
    | _ :: _ :: _ => failed "duplicate"
    | [found] =>
        if found.isPublic = false then failed "private"
        else if trimSpace found.buildStatus ≠ "ready" ∧ trimSpace found.buildStatus ≠ "uploaded" then
          failed "non_runnable"
        else if trimSpace found.templateID = "" then failed "empty_template_id"
        else .ok (trimSpace found.templateID)

def resolveTemplate (service : SandboxService) (profile : RunnerProfile) :
    Action (Except GoError String) := do
  if trimSpace profile.managedBy = "" then return .ok profile.templateID
  else if service.listsTemplates = false then
    return .error (newDefaultTemplateResolutionError (trimSpace profile.defaultTemplateName)
      "catalog_unavailable")
  else
    match ← ask (.listDefaultTemplates service) with
    | .error err =>
        return .error (err.wrap ("list default templates for " ++
          (trimSpace profile.defaultTemplateName).quote ++ ": "))
    | .ok templates => return resolveDefaultTemplateID profile.defaultTemplateName templates

def startRunningState (current : RunnerState) (result : StartResult) : RunnerState :=
  { current with
    status := .running
    sandboxID := result.sandboxID
    processPID := result.pid
    error := ""
    leaseOwner := ""
    leaseExpiresAt := none }

/-- From the return of `StartRunner` on. -/
def startRecorded (id : String) (result : StartResult) : Action Unit := do
  lockRunner id
  match ← fetchState id with
  | .error _ => do
      unlockRunner id
      cleanupStartedSandbox id result
  | .ok current =>
      if current.status ≠ .creating then do
        unlockRunner id
        cleanupStartedSandbox id result
      else
        match ← putState .startRunning (startRunningState current result) with
        | .error _ => do
            unlockRunner id
            cleanupStartedSandbox id result
        | .ok () => do
            unlockRunner id
            ask .awaitExit

def startSandbox (id : String) (req : RunnerRequest) (st : RunnerState)
    (profile : RunnerProfile) (service : SandboxService) : Action Unit := do
  match ← resolveTemplate service profile with
  | .error err => failStart server id st "template_resolution" err
  | .ok templateID =>
      match ← ask (.createRegistrationToken req.repositoryFullName req.runnerGroup) with
      | .error err => failStart server id st "github_registration" err
      | .ok token =>
          match ← ask (.runnerURL req.repositoryFullName req.runnerGroup) with
          | .error err => failStart server id st "github_runner_url" err
          | .ok repositoryURL =>
              let input : StartInput :=
                { requestID := req.id
                  runnerName := req.runnerName
                  repositoryURL := repositoryURL
                  registrationToken := token
                  labels := req.labels
                  runnerGroup := trimSpace req.runnerGroup
                  templateID := templateID
                  requireDocker := trimSpace profile.managedBy ≠ ""
                  timeout := server.cfg.sandboxTimeout }
              match ← ask (.startRunner service input) with
              | .error err => failStart server id st "sandbox_start" err
              | .ok result => startRecorded id result

def snapshotState (current : RunnerState) (service : SandboxService) : RunnerState :=
  { current with
    sandboxAPIURL := service.apiURL
    sandboxAPIKeyEncrypted := service.encryptedAPIKey
    sandboxConfigSource := service.source }

/-- From the creating write on, outside both mutexes. The snapshot of the
credentials is read and written without the runner's mutex. -/
def startCreated (id workerID : String) (req : RunnerRequest) (st : RunnerState)
    (profile : RunnerProfile) : Action Unit := do
  match ← ensureWorkflowJobStillQueued req with
  | .error err => failStart server id st "github_job_status" err
  | .ok false => dropLease id workerID
  | .ok true =>
      match ← ask (.resolveSandboxService req) with
      | .error err => failStart server id st "sandbox_config" err
      | .ok service =>
          if service.apiURL ≠ "" ∨ service.encryptedAPIKey ≠ "" then
            match ← fetchState id with
            | .error err =>
                failStart server id st "sandbox_config"
                  (err.wrap "read state for sandbox config snapshot: ")
            | .ok current =>
                let current := snapshotState current service
                match ← putState .startSnapshot current with
                | .error err =>
                    failStart server id current "sandbox_config"
                      (err.wrap "write sandbox config snapshot: ")
                | .ok () => startSandbox server id req st profile service
          else startSandbox server id req st profile service

def profileAtCapacityFor (profile : RunnerProfile) : Action (Except GoError Bool) := do
  if profile.maxConcurrency ≤ 0 then return .ok false
  else
    match ← ask (.inFlightCountForProfile profile.name) with
    | .error err => return .error err
    | .ok inFlight => return .ok (decide (profile.maxConcurrency ≤ inFlight))

def startCreatingState (st : RunnerState) (workerID : String) (leaseExpiresAt : Time) :
    RunnerState :=
  { st with
    status := .creating
    leaseOwner := workerID
    leaseExpiresAt := some leaseExpiresAt }

/-- Under both mutexes, once the counts leave room. -/
def startAdmitted (id workerID : String) (req : RunnerRequest) (st : RunnerState)
    (profile : RunnerProfile) : Action Unit := do
  let now ← currentTime
  let st := startCreatingState st workerID (now + server.cfg.workerLeaseTTL)
  match ← putState .startCreating st with
  | .error _ => do
      ask .unlockAdmission
      unlockRunner id
      dropLease id workerID
  | .ok () => do
      ask .unlockAdmission
      unlockRunner id
      startCreated server id workerID req st profile

def startDeferred (id workerID : String) : Action Unit := do
  ask .unlockAdmission
  unlockRunner id
  let now ← currentTime
  deferQueuedRequest id workerID (now + 5 * second)

def startRunner (id workerID : String) : Action Unit := do
  lockRunner id
  match ← fetchRequest id with
  | .error _ => unlockRunner id
  | .ok req =>
      match ← fetchState id with
      | .error _ => unlockRunner id
      | .ok st =>
          if st.status = .completed ∨ st.status = .stopping then do
            unlockRunner id
            dropLease id workerID
          else
            match ← ask (.getProfile req.profileName) with
            | .error err => do
                unlockRunner id
                failStart server id st "profile_lookup"
                  (err.wrap ("load profile " ++ req.profileName.quote ++ ": "))
            | .ok profile => do
                ask .lockAdmission
                match ← ask .inFlightCount with
                | .error _ => do
                    ask .unlockAdmission
                    unlockRunner id
                    dropLease id workerID
                | .ok inFlight =>
                    if server.cfg.maxConcurrentRunners ≤ inFlight then
                      startDeferred id workerID
                    else if req.profileName = "" then
                      startAdmitted server id workerID req st profile
                    else
                      match ← profileAtCapacityFor profile with
                      | .error _ => do
                          ask .unlockAdmission
                          unlockRunner id
                          dropLease id workerID
                      | .ok true => startDeferred id workerID
                      | .ok false => startAdmitted server id workerID req st profile

end Starting

section Exits
variable (server : Server)

def githubRunnerBusy (st : RunnerState) : Action (Except GoError Bool) := do
  let runnerName := trimSpace st.runnerName
  if runnerName = "" ∨ trimSpace st.repositoryFullName = "" then return .ok false
  else
    match ← ask (.listRunners st.repositoryFullName st.runnerGroup) with
    | .error err => return .error err
    | .ok runners =>
        return .ok (((runners.find? fun runner => runner.name == runnerName).map
          GitHubRunner.busy).getD false)

def keepRunningState (latest : RunnerState) (message : String) : RunnerState :=
  { latest with
    status := .running
    lastErrorCode := "github_runner_busy"
    lastErrorMessage := message
    lastErrorRetryable := true
    error := message
    assignedJobName :=
      if latest.assignedJobName = "" then runnerJobStartedMarker else latest.assignedJobName }

def busyExitMessage (result : ExitResult) (err : Option GoError) : String :=
  "runner process stream ended while GitHub still reports the runner is busy: " ++
    match err with
    | some err => err.message
    | none => runnerExitMessage result

def keepRunnerRunningWhenGitHubBusy (id : String) (st : RunnerState) (result : ExitResult)
    (err : Option GoError) : Action Bool := do
  match ← githubRunnerBusy st with
  | .error _ => return false
  | .ok false => return false
  | .ok true =>
      withRunnerLock id do
        match ← fetchState id with
        | .error _ => return false
        | .ok latest =>
            if latest.status ≠ .creating ∧ latest.status ≠ .running then return true
            else if latest.runnerName ≠ st.runnerName ∨ latest.sandboxID ≠ st.sandboxID then
              return true
            else
              match ← putState .keepRunning (keepRunningState latest (busyExitMessage result err)) with
              | .error _ => return false
              | .ok () => return true

/-- The request after the process, as far as the exit itself decides it. -/
def exitedState (st : RunnerState) (result : ExitResult) (err : Option GoError) : RunnerState :=
  match err with
  | some err =>
      { st with
        status := .failed
        error := err.message
        failureStage := "runner_exit"
        failureReason := "process_error" }
  | none =>
      if result.exitCode = 0 then st
      else
        { st with
          status := .failed
          error := runnerExitMessage result
          failureStage := "runner_exit"
          failureReason := toString result.exitCode }

/-- The request after its sandbox's cleanup. A process error is kept and the
cleanup's error is added to it; otherwise the cleanup decides. -/
def exitCleanedState (st : RunnerState) (err : Option GoError) (cleanup : Option GoError)
    (now : Time) : RunnerState :=
  match err, cleanup with
  | some _, some cleanupErr =>
      { st with error := st.error ++ "; cleanup sandbox: " ++ cleanupErr.message }
  | some _, none => st
  | none, some cleanupErr =>
      { st with
        status := .failed
        error := "cleanup sandbox after runner exit: " ++ cleanupErr.message }
  | none, none =>
      if st.status ≠ .failed then { st with status := .completed, completedAt := some now } else st

def exitUnregisteredState (st : RunnerState) (err : Option GoError) (cleanupErr : GoError) :
    RunnerState :=
  let message := appendError st.error ("github runner cleanup: " ++ cleanupErr.message)
  match err with
  | some _ => { st with error := message }
  | none => cleanupFailedState st message

/-- From the cleanup of the sandbox on. -/
def exitCleaned (st : RunnerState) (err cleanup : Option GoError) : Action Unit := do
  let now ← currentTime
  let st := exitCleanedState st err cleanup now
  match ← cleanupGitHubRunner st with
  | none => writeStateOrLog .exited st
  | some cleanupErr =>
      let now ← currentTime
      match scheduleCleanupRetry server.cfg now st cleanupErr with
      | some next => writeStateOrLog .exitedCleanupRetry next
      | none => writeStateOrLog .exited (exitUnregisteredState st err cleanupErr)

def exitLocked (id : String) (st : RunnerState) (result : ExitResult) (err : Option GoError) :
    Action Unit := do
  let st := exitedState st result err
  let cleanup ← cleanupSandboxAfterExit id st
  exitCleaned server st err cleanup

def runnerExited (id : String) (result : ExitResult) (err : Option GoError) : Action Unit := do
  lockRunner id
  match ← fetchState id with
  | .error _ => unlockRunner id
  | .ok st =>
      if st.status ≠ .creating ∧ st.status ≠ .running then unlockRunner id
      else if shouldCheckGitHubBusyAfterRunnerExit result err then do
        unlockRunner id
        if ← keepRunnerRunningWhenGitHubBusy id st result err then return ()
        else
          lockRunner id
          match ← fetchState id with
          | .error _ => unlockRunner id
          | .ok st =>
              if st.status ≠ .creating ∧ st.status ≠ .running then unlockRunner id
              else do
                exitLocked server id st result err
                unlockRunner id
      else do
        exitLocked server id st result err
        unlockRunner id

end Exits

section Recovery
variable (server : Server)

def workflowJobForRecovery (st : RunnerState) : Action (Except GoError (Option WorkflowJob)) := do
  if st.workflowJobID = 0 ∨ trimSpace st.repositoryFullName = "" then return .ok none
  else
    match ← getWorkflowJob st.repositoryFullName st.workflowJobID with
    | .error err =>
        return .error (err.wrap ("get workflow job " ++ toString st.workflowJobID ++ ": "))
    | .ok job => return .ok (some job)

def remainingSandboxTimeout (st : RunnerState) (now : Time) : Duration :=
  match st.runningAt.or st.creatingAt with
  | none => server.cfg.sandboxTimeout
  | some startedAt =>
      min (server.cfg.sandboxTimeout - (now - startedAt)) server.cfg.sandboxTimeout

def interruptedState (st : RunnerState) : RunnerState :=
  { st with
    status := .queued
    sandboxID := ""
    processPID := 0
    error := ""
    failureStage := ""
    failureReason := ""
    lastErrorCode := ""
    lastErrorMessage := ""
    lastErrorRetryable := false
    leaseOwner := ""
    leaseExpiresAt := none
    nextRetryAt := none
    creatingAt := none
    runningAt := none
    stoppingAt := none }

def requeueInterruptedCreation (id : String) (stateVersion : Nat) : Action (Option GoError) :=
  withRunnerLock id do
    match ← fetchState id with
    | .error err => return some err
    | .ok st =>
        if st.version ≠ stateVersion ∨ st.status ≠ .creating then return none
        else
          match ← putState .requeueInterrupted (interruptedState st) with
          | .error err => return some (err.wrap "requeue interrupted runner creation: ")
          | .ok () => return none

def reconnectedState (latest : RunnerState) (result : StartResult) : RunnerState :=
  { latest with
    status := .running
    sandboxID := result.sandboxID
    processPID := result.pid
    leaseOwner := ""
    leaseExpiresAt := none
    error := ""
    failureStage := ""
    failureReason := ""
    lastErrorCode := ""
    lastErrorMessage := ""
    lastErrorRetryable := false }

/-- `RecoverRunner` succeeded. The watcher it attached learns here whether this
recovery still owns the request. -/
def reconnect (id : String) (stateVersion : Nat) (result : StartResult) :
    Action (Option GoError) := do
  lockRunner id
  let (accepted, err) ← (do
    match ← fetchState id with
    | .error err => return (false, some err)
    | .ok latest =>
        if latest.version ≠ stateVersion ∨
            (latest.status ≠ .creating ∧ latest.status ≠ .running) then return (false, none)
        else
          match ← putState .recoverReconnected (reconnectedState latest result) with
          | .error err => return (false, some (err.wrap "write recovered runner state: "))
          | .ok () => return (true, none) : Action (Bool × Option GoError))
  unlockRunner id
  ask (.offerExitWatch accepted)
  return err

/-- `RecoverRunner` failed with `err`. -/
def recoverFailed (st : RunnerState) (stateVersion : Nat) (job : Option WorkflowJob)
    (result : StartResult) (err : GoError) : Action (Option GoError) := do
  ask (.offerExitWatch false)
  let jobStatus := trimSpace ((job.map WorkflowJob.status).getD "")
  if st.status = .running ∧ err.sandboxNotFound = true then
    failAndStopRunnerVersion server st.id stateVersion "recovery" "sandbox_not_found"
      "runner sandbox no longer exists after restart"
    return none
  else if st.status = .creating ∧ err.sandboxNotFound = true ∧
      (job.isNone ∨ equalFold jobStatus "queued" = true) then
    requeueInterruptedCreation st.id stateVersion
  else if st.status = .creating ∧ err.sandboxNotFound = true ∧
      equalFold jobStatus "in_progress" = true then
    failAndStopRunnerVersion server st.id stateVersion "recovery" "sandbox_not_found"
      "runner sandbox no longer exists after interrupted creation"
    return none
  else if st.status = .creating ∧ err.runnerNotFound = true ∧ result.sandboxID ≠ "" then
    match ← stopSandboxWithTimeout st.id result.sandboxID 0 with
    | none => requeueInterruptedCreation st.id stateVersion
    | some stopErr =>
        if isSandboxGone stopErr then requeueInterruptedCreation st.id stateVersion
        else return some (stopErr.wrap "stop sandbox without runner before requeue: ")
  else return some (err.wrap "reconnect runner: ")

def recoverSandbox (st : RunnerState) (stateVersion : Nat) (job : Option WorkflowJob) :
    Action (Option GoError) := do
  let now ← currentTime
  let timeout := remainingSandboxTimeout server st now
  if timeout ≤ 0 then
    failAndStopRunnerVersion server st.id stateVersion "sandbox_timeout" "timeout"
      "runner exceeded sandbox timeout during recovery"
    return none
  else
    match ← fetchRequest st.id with
    | .error err => return some (err.wrap "read runner request for recovery: ")
    | .ok req =>
        match ← ask (.resolveSandboxService req) with
        | .error err => return some (err.wrap "resolve sandbox service for recovery: ")
        | .ok service =>
            let input : RecoverInput :=
              { requestID := st.id
                sandboxID := st.sandboxID
                pid := st.processPID
                timeout := timeout }
            match ← ask (.recoverRunner service input) with
            | (result, some err) => recoverFailed server st stateVersion job result err
            | (result, none) => reconnect st.id stateVersion result

def recoverActiveRunner (st : RunnerState) : Action (Option GoError) := do
  let job ← workflowJobForRecovery st
  match job with
  | .error _ => recoverSandbox server st st.version none
  | .ok none => recoverSandbox server st st.version none
  | .ok (some job) =>
      if equalFold (trimSpace job.status) "completed" then
        match ← stopRunner server st.id job with
        | .error err => return some err
        | .ok (latest, _) =>
            if latest.status ≠ .creating ∧ latest.status ≠ .running then return none
            else recoverSandbox server latest latest.version (some job)
      else recoverSandbox server st st.version (some job)

def recoverRunner (id : String) : Action (Option GoError) := do
  lockRunner id
  match ← fetchState id with
  | .error err => do
      unlockRunner id
      return some err
  | .ok st =>
      match st.status with
      | .completed | .failed => do
          unlockRunner id
          return none
      | .queued =>
          match ← putState .recoverQueued (unleasedState st) with
          | .error err => do
              unlockRunner id
              return some (err.wrap "clear queued runner lease: ")
          | .ok () => do
              unlockRunner id
              return none
      | .stopping => do
          unlockRunner id
          match ← stopRunner server id {} with
          | .error err => return some err
          | .ok _ => return none
      | .creating | .running => do
          unlockRunner id
          recoverActiveRunner server st

end Recovery

end Runnerd
