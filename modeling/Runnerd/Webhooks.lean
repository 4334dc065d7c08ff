import Runnerd.Lifecycle

/-!
`internal/server/server_webhooks.go` with the admission functions it calls, and
the runner handlers of `server_admin_handlers.go`. Requests arrive decoded and
authenticated; what a handler replies is left out.
-/

namespace Runnerd

open GoText Interaction

section Admission
variable (server : Server)

def enqueueRunnerRequest (req : RunnerRequest) (links : GitHubContext) :
    Action (Except GoError (RunnerState × Bool)) := do
  ask .lockAdmission
  match ← fetchState req.id with
  | .ok st => do
      ask .unlockAdmission
      return .ok (st, false)
  | .error _ => do
      let created ← ask (.createRequest req links .queued "" "" "")
      ask .unlockAdmission
      match created with
      | .error err => return .error err
      | .ok (created, st) => return .ok (st, created)

def rejectAdmission (req : RunnerRequest) (links : GitHubContext) (reason : String) :
    Action (Except GoError RunnerState) := do
  match ← ask (.createRequest req links .failed "admission" (trimSpace reason)
    "runner admission rejected") with
  | .error err => return .error err
  | .ok (_, st) => return .ok st

def workflowJobPullRequestNumber (pulls : List Int) : Int := pulls.headD 0

/-- The request of a workflow job, before a profile is chosen for it. -/
def workflowJobRequest (repository : String) (installationID : Int) (job : WorkflowJob) :
    RunnerRequest where
  id := toString job.id
  source := "github_webhook"
  jobID := job.id
  pullRequestNumber := workflowJobPullRequestNumber job.pullRequests
  githubInstallationID := installationID
  repositoryFullName := repository
  requestedLabels := job.labels
  labels := job.labels
  runnerName := "e2b-" ++ toString job.id

/-- The `queued` branch of the job webhook and `enqueueWorkflowJob` are the same
text. -/
def enqueueWorkflowJob (repository : String) (installationID : Int) (job : WorkflowJob)
    (links : GitHubContext) : Action (Except GoError (RunnerState × Bool)) := do
  let req := workflowJobRequest repository installationID job
  if server.repositoryAllowed repository = false then
    return (← rejectAdmission req links "repository_not_allowed").map fun st => (st, false)
  else
    match ← ask (.matchProfile repository job.labels) with
    | .error err => return .error err
    | .ok none =>
        return (← rejectAdmission req links "profile_labels_not_matched").map fun st => (st, false)
    | .ok (some profile) =>
        enqueueRunnerRequest
          { req with
            profileName := profile.name
            runnerGroup := profile.runnerGroup
            labels := profile.labels }
          links

end Admission

section JobEvents
variable (server : Server)

inductive WorkflowJobAction where
  | queued
  | inProgress
  | completed
  | other
  deriving DecidableEq, Repr

/-- `links` is what the store takes from the payload for a new row. -/
structure WorkflowJobEvent where
  action : WorkflowJobAction
  workflowJob : WorkflowJob
  repository : String := ""
  installationID : Int := 0
  links : GitHubContext := {}
  deriving DecidableEq, Repr

/-- The request a job event is about: by the runner's name, else by the job's
own id. The empty id stands for none. -/
def completedWorkflowJobStopID (job : WorkflowJob) : Action String := do
  if hasPrefix job.runnerName "e2b-" then return trimPrefix job.runnerName "e2b-"
  else if job.id = 0 then return ""
  else
    match ← fetchState (toString job.id) with
    | .ok _ => return toString job.id
    | .error _ => return ""

def workflowJobInProgress (job : WorkflowJob) : Action Unit := do
  let startID ← completedWorkflowJobStopID job
  if startID = "" then return ()
  else
    let _ ← markWorkflowJobInProgress startID job

def workflowJobCompleted (job : WorkflowJob) : Action Unit := do
  let stopID ← completedWorkflowJobStopID job
  if stopID = "" then return ()
  else
    match ← stopRunner server stopID job with
    | .ok (st, true) => ask (.recordWorkflowCompleted st job)
    | _ => return ()

/-- `handleGitHubWebhook` on a `workflow_job` delivery. -/
def handleWorkflowJob (event : WorkflowJobEvent) : Action Unit := do
  match event.action with
  | .queued =>
      let _ ← enqueueWorkflowJob server event.repository event.installationID event.workflowJob
        event.links
  | .inProgress => workflowJobInProgress event.workflowJob
  | .completed => workflowJobCompleted server event.workflowJob
  | .other => return ()

end JobEvents

section RunEvents
variable (server : Server)

structure WorkflowRunEvent where
  /-- The action is `requested` or `in_progress`. -/
  reconciles : Bool
  runID : Int
  repository : String := ""
  installationID : Int := 0
  links : GitHubContext := {}

def handleWorkflowRunWebhook (event : WorkflowRunEvent) : Action Unit := do
  if event.reconciles = false then return ()
  else
    match ← ask (.listWorkflowRunJobs event.repository event.runID) with
    | .error _ => return ()
    | .ok jobs =>
        Prog.each (fun job => do
          if job.id = 0 ∨ job.status ≠ "queued" then return ()
          else
            let _ ← enqueueWorkflowJob server event.repository event.installationID job event.links)
          jobs

end RunEvents

section Admin
variable (server : Server)

structure ManualCreateRequest where
  id : String := ""
  repositoryFullName : String := ""
  profileName : String := ""
  labels : List String := []

def manualRequest (id repository profileName runnerGroup : String)
    (labels requestedLabels : List String) : RunnerRequest where
  id := id
  source := "manual_api"
  repositoryFullName := repository
  labels := labels
  requestedLabels := requestedLabels
  profileName := profileName
  runnerGroup := runnerGroup
  runnerName := "e2b-" ++ id

/-- `newID` is the random id of a request that gives none. -/
def handleCreateRunner (input : ManualCreateRequest) (newID : String) : Action Unit := do
  let id := if input.id = "" then newID else input.id
  let repository := trimSpace input.repositoryFullName
  let profileName := trimSpace input.profileName
  if repository = "" ∨ contains repository "*" = true then return ()
  else if server.repositoryAllowed repository = false then return ()
  else if profileName = "" then
    if input.labels = [] then return ()
    else
      match ← ask (.matchProfile repository input.labels) with
      | .error _ => return ()
      | .ok none => return ()
      | .ok (some profile) =>
          let _ ← enqueueRunnerRequest
            (manualRequest id repository profile.name profile.runnerGroup profile.labels
              input.labels) {}
  else
    match ← ask (.getProfile profileName) with
    | .error _ => return ()
    | .ok profile =>
        if (validateRequestedProfile profile input.labels).isSome then return ()
        else
          let labels := if input.labels = [] then profile.labels else input.labels
          let _ ← enqueueRunnerRequest
            (manualRequest id repository profileName profile.runnerGroup labels labels) {}

def handleRetryRunner (id : String) : Action Unit := do
  let now ← currentTime
  let _ ← ask (.retryRequest id now)

def handleDeleteRunner (id : String) : Action Unit := do
  let _ ← stopRunner server id {}

end Admin

end Runnerd
