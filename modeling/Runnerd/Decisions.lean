import Runnerd.RunnerState

/-!
The decisions of `internal/server/server_runner_lifecycle.go` that look only at
a request, a workflow job and an error: which errors are retried, what a failed
step writes into the request, and which job a runner belongs to.
-/

namespace Runnerd

open GoText

section Errors

def isSandboxGone (err : GoError) : Bool :=
  contains err.message "status 404" || contains err.message "Sandbox can't be resumed" ||
    contains err.message "SandboxNotFound"

def isGitHubRunnerBusyCleanup (err : GoError) : Bool :=
  let msg := toLower err.message
  contains msg "github remove runner: status 422" && contains msg "currently running a job" &&
    contains msg "cannot be deleted"

/-- The reason code of a failure and whether it is retried. -/
def classifyRetryableError (stage : String) (err : GoError) : String × Bool :=
  match err.templateReason with
  | some reason => (reason, false)
  | none =>
      if err.deadlineExceeded then ("timeout", true)
      else
        let msg := toLower err.message
        if isGitHubRunnerBusyCleanup err then ("github_runner_busy", true)
        else if contains msg "failed to place sandbox" then ("sandbox_capacity", true)
        else if contains msg "secondary rate limit" then ("github_secondary_rate_limit", true)
        else if contains msg "status 429" then ("http_rate_limited", true)
        else if contains msg "status 408" || contains msg "status 409" ||
            contains msg "status 425" then ("http_retryable_status", true)
        else if contains msg "status 5" then
          if contains stage "github" then ("github_server_error", true)
          else ("backend_server_error", true)
        else if contains msg "timeout" || contains msg "timed out" ||
            contains msg "i/o timeout" || contains msg "connection reset" ||
            contains msg "temporary" || contains msg "eof" then ("temporary_network_error", true)
        else if contains msg "status 401" || contains msg "status 403" then ("auth_error", false)
        else (stage, false)

def isQueueDeferFailure (code : String) : Bool :=
  code == "sandbox_capacity" || code == "http_rate_limited" ||
    code == "github_secondary_rate_limit"

def appendError (current extra : String) : String :=
  let current := trimSpace current
  let extra := trimSpace extra
  if current = "" then extra else if extra = "" then current else current ++ "; " ++ extra

end Errors

section Retries

/-- Go's `int64` product wraps around. -/
def wrap64 (value : Int) : Int := value.bmod (2 ^ 64)

def doubleDelay (maxDelay : Duration) : Nat → Duration → Duration
  | 0, delay => delay
  | rounds + 1, delay =>
      let doubled := wrap64 (delay * 2)
      if maxDelay ≤ doubled then maxDelay else doubleDelay maxDelay rounds doubled

def nextRetryAt (cfg : Config) (retryCount : Nat) (now : Time) : Time :=
  let delay := doubleDelay cfg.retryMaxDelay (retryCount - 1) cfg.retryBaseDelay
  now + if cfg.retryMaxDelay < delay then cfg.retryMaxDelay else delay

/-- `applyFailure`: the request goes back to the queue or fails, and in both
cases it forgets its sandbox. -/
def applyFailure (cfg : Config) (now : Time) (st : RunnerState) (stage : String) (err : GoError)
    (allowRetry : Bool) : RunnerState :=
  let (code, retryable) := classifyRetryableError stage err
  let st := { st with
    error := err.message
    failureStage := stage
    failureReason := code
    lastErrorCode := code
    lastErrorMessage := err.message
    lastErrorRetryable := retryable
    leaseOwner := ""
    leaseExpiresAt := none
    sandboxID := ""
    processPID := 0
    completedAt := none }
  if allowRetry && retryable && isQueueDeferFailure code then
    let retryCount :=
      if st.retryCount < cfg.retryMaxAttempts then st.retryCount + 1 else st.retryCount
    { st with
      status := .queued
      retryCount := retryCount
      nextRetryAt := some (nextRetryAt cfg (max retryCount 1) now)
      creatingAt := none
      runningAt := none
      stoppingAt := none
      failedAt := none }
  else if allowRetry && retryable && st.retryCount < cfg.retryMaxAttempts then
    { st with
      status := .queued
      retryCount := st.retryCount + 1
      nextRetryAt := some (nextRetryAt cfg (st.retryCount + 1) now)
      creatingAt := none
      runningAt := none
      stoppingAt := none
      failedAt := none }
  else { st with status := .failed, nextRetryAt := none }

/-- `some` is Go's `true` with the request it has changed. -/
def scheduleStopRetry (cfg : Config) (now : Time) (st : RunnerState) (err : GoError) :
    Option RunnerState :=
  let (code, retryable) := classifyRetryableError "stop" err
  if !retryable || cfg.retryMaxAttempts ≤ st.retryCount then none
  else
    some { st with
      retryCount := st.retryCount + 1
      status := .stopping
      failureStage := "stop"
      failureReason := code
      lastErrorCode := code
      lastErrorMessage := err.message
      lastErrorRetryable := true
      error := err.message
      nextRetryAt := some (nextRetryAt cfg (st.retryCount + 1) now) }

def cleanupRetryState (cfg : Config) (now : Time) (st : RunnerState) (code : String)
    (err : GoError) (retryCount : Nat) : RunnerState :=
  let first := st.failureStage == ""
  { st with
    retryCount := retryCount
    status := .stopping
    failureStage := if first then "cleanup" else st.failureStage
    failureReason := if first then code else st.failureReason
    error := if first then err.message else st.error
    lastErrorCode := code
    lastErrorMessage := err.message
    lastErrorRetryable := true
    nextRetryAt := some (nextRetryAt cfg retryCount now) }

def scheduleCleanupRetry (cfg : Config) (now : Time) (st : RunnerState) (err : GoError) :
    Option RunnerState :=
  let (code, retryable) := classifyRetryableError "github_cleanup" err
  if !retryable then none
  else if isGitHubRunnerBusyCleanup err then
    let retryCount :=
      if st.retryCount < cfg.retryMaxAttempts then st.retryCount + 1 else st.retryCount
    some (cleanupRetryState cfg now st code err retryCount)
  else if cfg.retryMaxAttempts ≤ st.retryCount then none
  else some (cleanupRetryState cfg now st code err (st.retryCount + 1))

end Retries

section Jobs

def shouldRecordAssignedJob (st : RunnerState) (job : WorkflowJob) : Bool :=
  job.id != 0 && (st.assignedJobID != job.id || st.assignedJobName != job.name)

/-- A completed workflow job that must not stop or reassign this runner. A
matching non-empty runner name is authoritative. -/
def workflowJobStopConflictsWithAssignment (st : RunnerState) (job : WorkflowJob) : Bool :=
  if job.id == 0 then false
  else if trimSpace job.runnerName != "" && trimSpace job.runnerName == trimSpace st.runnerName then
    false
  else if st.assignedJobID != 0 then st.assignedJobID != job.id
  else st.assignedJobName == runnerJobStartedMarker && st.workflowJobID == job.id

def workflowJobMismatch (st : RunnerState) (job : WorkflowJob) : Bool :=
  st.workflowJobID != 0 && job.id != 0 && st.workflowJobID != job.id

def assignJob (st : RunnerState) (job : WorkflowJob) : RunnerState :=
  { st with assignedJobID := job.id, assignedJobName := job.name }

def recordAssignedJob (st : RunnerState) (job : WorkflowJob) : RunnerState :=
  if shouldRecordAssignedJob st job then assignJob st job else st

end Jobs

section Exits

structure ExitResult where
  exitCode : Int := 0
  stdout : String := ""
  stderr : String := ""
  error : String := ""
  deriving DecidableEq, Repr

def runnerExitMessage (result : ExitResult) : String :=
  let detail := trimSpace result.stderr
  let detail := if detail = "" then trimSpace result.error else detail
  let detail := if detail = "" then trimSpace result.stdout else detail
  if detail = "" then "runner process exited with code " ++ toString result.exitCode
  else "runner process exited with code " ++ toString result.exitCode ++ ": " ++ detail

def shouldCheckGitHubBusyAfterRunnerExit (result : ExitResult) (err : Option GoError) : Bool :=
  !(err.isNone && result.exitCode == 0)

end Exits

end Runnerd
