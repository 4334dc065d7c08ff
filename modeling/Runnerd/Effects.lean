import Runnerd.Decisions
import Runnerd.Interaction
import Runnerd.RequestStore
import Runnerd.SandboxService

/-!
Everything the server's goroutines do to the world outside their own stack, one
call at a time: the store's transactions, the mutexes and channels of `Server`,
the GitHub client and the sandbox service. A store call may fail without
effect. GitHub and the sandbox service answer what they like.
-/

namespace Runnerd

open GoText Interaction

/-- Which statement of the source a `WriteState` is. The store ignores it. -/
inductive Writer where
  | startCreating
  | startSnapshot
  | startRunning
  | completeWithoutSandbox
  | markInProgress
  | markJobStarted
  | failStart
  | exitedCleanupRetry
  | exited
  | keepRunning
  | recoverQueued
  | recoverReconnected
  | requeueInterrupted
  | stopAssignment
  | stopStopping
  | stopRetry
  | stopFailed
  | stopCleanupRetry
  | stopCleanupFailed
  | stopMismatched
  | stopFinished
  | mismatchInspected
  | mismatchRequeued
  | forceStopping
  | forceStopFailed
  | forceCleanupRetry
  | forceFailed
  | retryOrFail
  | deferQueued
  | completeReconciled
  deriving DecidableEq, Repr

/-- A resolved sandbox service: the credentials it calls with, where they came
from, and whether it lists default templates. -/
structure SandboxService where
  apiURL : String := ""
  encryptedAPIKey : String := ""
  source : String := ""
  listsTemplates : Bool := true
  deriving DecidableEq, Repr

structure StartInput where
  requestID : String
  runnerName : String
  repositoryURL : String
  registrationToken : String
  labels : List String
  runnerGroup : String
  templateID : String
  requireDocker : Bool
  timeout : Duration

structure CatalogTemplate where
  templateID : String
  names : List String := []
  buildStatus : String := ""
  isPublic : Bool := true

structure GitHubRunner where
  name : String
  busy : Bool

inductive Op where
  | lockRunner (id : String)
  | unlockRunner (id : String)
  | lockAdmission
  | unlockAdmission
  | acquireSlot
  | releaseSlot
  | now
  | readState (id : String)
  | readRequest (id : String)
  | writeState (writer : Writer) (st : RunnerState)
  | claimNextRunnable (workerID : String) (now : Time) (leaseTTL : Duration)
  | releaseLease (id workerID : String)
  | retryRequest (id : String) (now : Time)
  | createRequest (req : RunnerRequest) (links : GitHubContext) (status : Status)
      (failureStage failureReason errorMessage : String)
  | inFlightCount
  | inFlightCountForProfile (name : String)
  | getProfile (name : String)
  | matchProfile (repository : String) (labels : List String)
  | listActiveStates
  | listMismatchedCompletedStates (limit : Nat)
  | listFailedWorkflowJobStates (limit : Nat)
  | getWorkflowJob (repository : String) (jobID : Int)
  | listWorkflowRunJobs (repository : String) (runID : Int)
  | listRunners (repository group : String)
  | removeRunnerByName (repository group name : String)
  | createRegistrationToken (repository group : String)
  | runnerURL (repository group : String)
  | resolveSandboxService (req : RunnerRequest)
  | listDefaultTemplates (service : SandboxService)
  | startRunner (service : SandboxService) (input : StartInput)
  | recoverRunner (service : SandboxService) (input : RecoverInput)
  | stopRunner (service : SandboxService) (sandboxID : String) (pid : Nat)
  | awaitProcess (sandboxID : String)
  | closeExit (owner : Nat)
  | awaitExit
  | offerExitWatch (accepted : Bool)
  | exitWatchAccepted (owner : Nat)
  | goStartRunner (claimed : RunnerState)
  | recordWorkflowCompleted (st : RunnerState) (job : WorkflowJob)

@[reducible] def Op.Resp : Op → Type
  | .lockRunner _ | .unlockRunner _ | .lockAdmission | .unlockAdmission | .releaseSlot => Unit
  | .acquireSlot => Bool
  | .now => Time
  | .readState _ => Except GoError RunnerState
  | .readRequest _ => Except GoError RunnerRequest
  | .writeState _ _ => Except GoError Unit
  | .claimNextRunnable _ _ _ => Except GoError (Option (RunnerRequest × RunnerState))
  | .releaseLease _ _ => Except GoError Unit
  | .retryRequest _ _ => Except GoError RunnerState
  | .createRequest _ _ _ _ _ _ => Except GoError (Bool × RunnerState)
  | .inFlightCount | .inFlightCountForProfile _ => Except GoError Nat
  | .getProfile _ => Except GoError RunnerProfile
  | .matchProfile _ _ => Except GoError (Option RunnerProfile)
  | .listActiveStates | .listMismatchedCompletedStates _ | .listFailedWorkflowJobStates _ =>
      Except GoError (List RunnerState)
  | .getWorkflowJob _ _ => Except GoError WorkflowJob
  | .listWorkflowRunJobs _ _ => Except GoError (List WorkflowJob)
  | .listRunners _ _ => Except GoError (List GitHubRunner)
  | .removeRunnerByName _ _ _ => Option GoError
  | .createRegistrationToken _ _ | .runnerURL _ _ => Except GoError String
  | .resolveSandboxService _ => Except GoError SandboxService
  | .listDefaultTemplates _ => Except GoError (List CatalogTemplate)
  | .startRunner _ _ => Except GoError StartResult
  | .recoverRunner _ _ => StartResult × Option GoError
  | .stopRunner _ _ _ => Option GoError
  | .awaitProcess _ => ExitResult × Option GoError
  | .closeExit _ | .awaitExit | .offerExitWatch _ | .goStartRunner _ => Unit
  | .exitWatchAccepted _ => Bool
  | .recordWorkflowCompleted _ _ => Unit

abbrev Action := Prog Op Op.Resp

def ask (op : Op) : Action op.Resp := Prog.request op

/-- What the surroundings answer to one call: the instant it happens at, a
store failure if there is one, and the answers of the remote services. -/
structure Choice where
  now : Time := 0
  storeError : Option GoError := none
  job : Except GoError WorkflowJob := .ok {}
  jobs : Except GoError (List WorkflowJob) := .ok []
  runners : Except GoError (List GitHubRunner) := .ok []
  removed : Option GoError := none
  token : Except GoError String := .ok ""
  repositoryURL : Except GoError String := .ok ""
  service : Except GoError SandboxService := .ok {}
  templates : Except GoError (List CatalogTemplate) := .ok []
  started : Except GoError StartResult := .ok {}
  recovered : RecoverAnswers := {}
  stopped : Option GoError := none
  exited : ExitResult × Option GoError := ({}, none)

/-- What stays the same for one process. `injectedSandbox` is the service given
to `New`, if any, as whether it lists default templates. -/
structure Server where
  cfg : Config
  catalog : Catalog
  workerID : String
  repositoryAllowed : String → Bool
  injectedSandbox : Option Bool := none

/-- The store and the process's own synchronisation. `exited` and `offers` are
the closed `exitCh` channels and the filled `exitWatchAccepted` channels, by the
goroutine that made them. -/
structure ServerState where
  table : RequestTable
  runnerLocks : List Nat := []
  admission : Option Nat := none
  slots : Nat := 0
  exited : List Nat := []
  offers : List (Nat × Bool) := []

section Locks

def fnv32a (bytes : List UInt8) : Nat :=
  bytes.foldl (fun hash byte => Nat.xor hash byte.toNat * 16777619 % 2 ^ 32) 2166136261

/-- The index of the mutex `lockRunner` takes among the 64 of `Server.locks`. -/
def lockStripe (id : String) : Nat := fnv32a id.toUTF8.toList % 64

end Locks

section Services

/-- `sandboxServiceAndConfigForRunnerRequestContext`: an injected service, else
the request's own snapshot, else what the scopes resolve to. -/
def resolveService (server : Server) (req : RunnerRequest)
    (resolved : Except GoError SandboxService) : Except GoError SandboxService :=
  match server.injectedSandbox with
  | some listsTemplates => .ok { listsTemplates := listsTemplates }
  | none =>
      if trimSpace req.sandboxAPIURL ≠ "" ∧ trimSpace req.sandboxAPIKeyEncrypted ≠ "" then
        resolved.map fun service =>
          { service with
            apiURL := trimSpace req.sandboxAPIURL
            encryptedAPIKey := trimSpace req.sandboxAPIKeyEncrypted
            source :=
              if trimSpace req.sandboxConfigSource = "" then "request_snapshot"
              else trimSpace req.sandboxConfigSource }
      else resolved

end Services

section Answers
variable (server : Server)

/-- A store call that fails leaves the table alone. -/
def stored {α : Type} (choice : Choice) (state : ServerState)
    (operation : RequestTable → Except GoError α × RequestTable) :
    Option (Except GoError α × ServerState) :=
  match choice.storeError with
  | some err => some (.error err, state)
  | none =>
      let (result, table) := operation state.table
      some (result, { state with table := table })

def loaded {α : Type} (choice : Choice) (state : ServerState)
    (query : RequestTable → Except GoError α) : Option (Except GoError α × ServerState) :=
  stored choice state fun table => (query table, table)

def respond (tid : Nat) (choice : Choice) (state : ServerState) :
    (op : Op) → Option (op.Resp × ServerState)
  | .lockRunner id =>
      if lockStripe id ∈ state.runnerLocks then none
      else some ((), { state with runnerLocks := lockStripe id :: state.runnerLocks })
  | .unlockRunner id =>
      some ((), { state with runnerLocks := state.runnerLocks.erase (lockStripe id) })
  | .lockAdmission =>
      match state.admission with
      | some _ => none
      | none => some ((), { state with admission := some tid })
  | .unlockAdmission => some ((), { state with admission := none })
  | .acquireSlot =>
      if state.slots < server.cfg.maxConcurrentRunners then
        some (true, { state with slots := state.slots + 1 })
      else some (false, state)
  | .releaseSlot => some ((), { state with slots := state.slots - 1 })
  | .now => some (choice.now, state)
  | .readState id => loaded choice state fun table => readState table id
  | .readRequest id => loaded choice state fun table => readRequest table id
  | .writeState _ st => stored choice state fun table => writeState choice.now table st
  | .claimNextRunnable workerID now leaseTTL =>
      stored choice state fun table => claimNextRunnable table workerID now leaseTTL
  | .releaseLease id workerID =>
      stored choice state fun table => releaseLease choice.now table id workerID
  | .retryRequest id now => stored choice state fun table => retryRequest now table id
  | .createRequest req links status stage reason message =>
      stored choice state fun table =>
        createRequest choice.now table req links status stage reason message
  | .inFlightCount => loaded choice state fun table => .ok (inFlightCount table)
  | .inFlightCountForProfile name =>
      loaded choice state fun table => .ok (inFlightCountForProfile table name)
  | .getProfile name => loaded choice state fun _ => getProfile server.catalog name
  | .matchProfile _ labels =>
      loaded choice state fun _ => .ok (selectMatchingProfile server.catalog.profiles labels)
  | .listActiveStates => loaded choice state fun table => .ok (listActiveStates table)
  | .listMismatchedCompletedStates limit =>
      loaded choice state fun table => .ok (listMismatchedCompletedStates table limit)
  | .listFailedWorkflowJobStates limit =>
      loaded choice state fun table => .ok (listFailedWorkflowJobStates table limit)
  | .getWorkflowJob _ _ => some (choice.job, state)
  | .listWorkflowRunJobs _ _ => some (choice.jobs, state)
  | .listRunners _ _ => some (choice.runners, state)
  | .removeRunnerByName _ _ _ => some (choice.removed, state)
  | .createRegistrationToken _ _ => some (choice.token, state)
  | .runnerURL _ _ => some (choice.repositoryURL, state)
  | .resolveSandboxService req => some (resolveService server req choice.service, state)
  | .listDefaultTemplates _ => some (choice.templates, state)
  | .startRunner _ _ => some (choice.started, state)
  | .recoverRunner _ input => some (recoverRunnerProcess choice.recovered input, state)
  | .stopRunner _ _ _ => some (choice.stopped, state)
  | .awaitProcess _ => some (choice.exited, state)
  | .closeExit owner => some ((), { state with exited := owner :: state.exited })
  | .awaitExit => if tid ∈ state.exited then some ((), state) else none
  | .offerExitWatch accepted =>
      some ((), { state with offers := (tid, accepted) :: state.offers })
  | .exitWatchAccepted owner => (state.offers.lookup owner).map fun accepted => (accepted, state)
  | .goStartRunner _ => some ((), state)
  | .recordWorkflowCompleted _ _ => some ((), state)

/-- A stopped process leaves the table behind and nothing else. -/
def crash (state : ServerState) : ServerState := { table := state.table }

end Answers

end Runnerd
