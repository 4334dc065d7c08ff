import Runnerd.Lifecycle

/-!
`internal/server/server_loops.go`: what the worker, the sweeper and the
reconciler do on one tick. A sweep acts on the list it read at its start, so
every entry may be out of date by the time its turn comes.
-/

namespace Runnerd

open GoText Interaction

section Worker
variable (server : Server)

/-- The source loops until no slot is free or nothing can be claimed. Any
execution of it is one with enough `rounds`. -/
def processQueuedRequests : Nat → Action Unit
  | 0 => return ()
  | rounds + 1 => do
      if ← ask .acquireSlot then
        let now ← currentTime
        match ← ask (.claimNextRunnable server.workerID now server.cfg.workerLeaseTTL) with
        | .error _ => ask .releaseSlot
        | .ok none => ask .releaseSlot
        | .ok (some (_, claimed)) => do
            ask (.goStartRunner claimed)
            processQueuedRequests rounds
      else return ()

end Worker

section Sweeper
variable (server : Server)

/-- `!since.IsZero() && now.Sub(since) > limit`. -/
def overdue (since : Option Time) (now : Time) (limit : Duration) : Bool :=
  since.any fun start => limit < now - start

def runTimedOut (now : Time) (st : RunnerState) : Bool :=
  st.status == .running && overdue st.runningAt now server.cfg.sandboxTimeout

/-- Whether a stopping request waits for its next attempt no longer. -/
def stopRetryDue (now : Time) (st : RunnerState) : Bool :=
  st.nextRetryAt.all fun next => next ≤ now

def sweepTimeout (now : Time) (st : RunnerState) : Action Unit := do
  match st.status with
  | .creating =>
      if overdue st.creatingAt now server.cfg.sandboxCreateTimeout then
        retryOrFail server st.id "sweeper_create_timeout" { message := "runner create timed out" }
      else return ()
  | .running =>
      if runTimedOut server now st then
        failAndStopRunner server st.id "sandbox_timeout" "timeout" "runner exceeded sandbox timeout"
      else return ()
  | .stopping =>
      if stopRetryDue now st && overdue st.stoppingAt now server.cfg.sandboxStopTimeout then
        stopIfExists server st.id {}
      else return ()
  | _ => return ()

def shouldStopIdleRunner (st : RunnerState) (now : Time) : Bool :=
  decide (0 < server.cfg.runnerIdleTimeout) && st.assignedJobID == 0 &&
    st.assignedJobName != runnerJobStartedMarker &&
    overdue st.runningAt now server.cfg.runnerIdleTimeout

def sweepIdle (st : RunnerState) : Action Unit := do
  match ← originalWorkflowJobQueued st with
  | .error _ => return ()
  | .ok true => return ()
  | .ok false =>
      match ← githubRunnerBusy st with
      | .error _ => return ()
      | .ok true => markRunnerJobStarted st.id
      | .ok false => stopIfExists server st.id {}

def sweepOnce : Action Unit := do
  match ← ask .listActiveStates with
  | .error _ => return ()
  | .ok states => do
      let now ← currentTime
      let stoppedRunning := (states.filter (runTimedOut server now)).map RunnerState.id
      Prog.each (sweepTimeout server now) states
      Prog.each (sweepIdle server) (states.filter fun st =>
        st.status == .running && shouldStopIdleRunner server st now &&
          !stoppedRunning.contains st.id)

end Sweeper

section Reconciler
variable (server : Server)

def reconcileStopping (st : RunnerState) : Action Unit := do
  let now ← currentTime
  if stopRetryDue now st then
    let now ← currentTime
    if overdue st.stoppingAt now server.cfg.sandboxStopTimeout then stopIfExists server st.id {}
    else return ()
  else return ()

def mismatchedCompleted (st : RunnerState) : Bool :=
  st.status == .completed && st.workflowJobID != 0 && st.assignedJobID != 0 &&
    st.workflowJobID != st.assignedJobID

/-- The two reads of one entry. The GitHub call between them is made without
the runner's mutex. -/
def reconcileMismatched (st : RunnerState) : Action Unit := do
  let current ← withRunnerLock st.id (fetchState st.id)
  match current with
  | .error _ => return ()
  | .ok current =>
      if mismatchedCompleted current = false then return ()
      else
        let queued := match ← originalWorkflowJobQueued current with
          | .error _ => true
          | .ok queued => queued
        withRunnerLock current.id do
          match ← fetchState current.id with
          | .error _ => return ()
          | .ok latest =>
              if latest.status ≠ .completed ∨ latest.workflowJobID ≠ current.workflowJobID ∨
                  latest.assignedJobID ≠ current.assignedJobID then return ()
              else
                let _ ← requeueMismatchedWorkflowJob latest queued

def reconcileMismatchedCompletedJobs : Action Unit := do
  match ← ask (.listMismatchedCompletedStates 50) with
  | .error _ => return ()
  | .ok states => Prog.each reconcileMismatched states

def recoverableFailure (st : RunnerState) : Bool :=
  st.status == .failed && (st.failureStage == "recovery" || st.failureStage == "cleanup")

def completeReconciledState (latest : RunnerState) (now : Time) : RunnerState :=
  { latest with
    status := .completed
    assignedJobID := 0
    assignedJobName := ""
    error := ""
    failureStage := ""
    failureReason := ""
    lastErrorCode := ""
    lastErrorMessage := ""
    lastErrorRetryable := false
    nextRetryAt := none
    leaseOwner := ""
    leaseExpiresAt := none
    completedAt := some now }

def completeIfWorkflowJobCompleted (id : String) : Action (Option GoError) := do
  match ← withRunnerLock id (fetchState id) with
  | .error err => return some err
  | .ok st =>
      if st.workflowJobID = 0 ∨ st.repositoryFullName = "" then return none
      else if recoverableFailure st = false then return none
      else
        match ← getWorkflowJob st.repositoryFullName st.workflowJobID with
        | .error err => return some err
        | .ok job =>
            if equalFold (trimSpace job.status) "completed" = false then return none
            else
              withRunnerLock id do
                match ← fetchState id with
                | .error err => return some err
                | .ok latest =>
                    if latest.version ≠ st.version ∨ latest.workflowJobID ≠ st.workflowJobID ∨
                        latest.repositoryFullName ≠ st.repositoryFullName then return none
                    else if recoverableFailure latest = false then return none
                    else
                      let now ← currentTime
                      match ← putState .completeReconciled (completeReconciledState latest now) with
                      | .error err => return some err
                      | .ok () => return none

def reconcileCompletedWorkflowJobs : Action Unit := do
  match ← ask (.listFailedWorkflowJobStates 50) with
  | .error _ => return ()
  | .ok states =>
      Prog.each (fun st => do
        let _ ← completeIfWorkflowJobCompleted st.id) states

def reconcileOnce (rounds : Nat) : Action Unit := do
  processQueuedRequests server rounds
  match ← ask .listActiveStates with
  | .error _ => return ()
  | .ok states => do
      Prog.each (reconcileStopping server) (states.filter fun st => st.status == .stopping)
      reconcileMismatchedCompletedJobs
      reconcileCompletedWorkflowJobs

end Reconciler

end Runnerd
