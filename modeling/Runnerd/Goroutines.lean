import Runnerd.Interleaving
import Runnerd.Loops
import Runnerd.Webhooks

/-!
The goroutines of one server process. Handlers, ticks and recovery start from
outside; the rest are started by a call of another goroutine: a claim starts
the attempt it claimed for, and a started or recovered runner starts the
watcher of its process.
-/

namespace Runnerd

open GoText Interaction Interleaving

inductive Task where
  | workflowJob (event : WorkflowJobEvent)
  | workflowRun (event : WorkflowRunEvent)
  | createRunner (input : ManualCreateRequest) (newID : String)
  | retryRunner (id : String)
  | deleteRunner (id : String)
  | runnerStdout (id text : String)
  | processQueuedRequests (rounds : Nat)
  | sweepOnce
  | reconcileOnce (rounds : Nat)
  | recover (id : String)
  /-- An attempt and the row as its claim left it. -/
  | startRunner (claimed : RunnerState)
  /-- `OnExit` of the sandbox that the attempt `owner` started. -/
  | exitWatch (id sandboxID : String) (owner : Nat)
  /-- `OnExit` of the sandbox that the recovery `owner` attached to. -/
  | recoveredExitWatch (id sandboxID : String) (owner : Nat)

abbrev RunnerMachine := Machine Op Op.Resp Task ServerState Choice
abbrev RunnerWorld := World Op Op.Resp Task ServerState
abbrev RunnerMove := Move Task Choice
abbrev Answered := Call Op Op.Resp

section Bodies
variable (server : Server)

def exitWatch (id sandboxID : String) (owner : Nat) : Action Unit := do
  let (result, err) ← ask (.awaitProcess sandboxID)
  runnerExited server id result err
  ask (.closeExit owner)

def recoveredExitWatch (id sandboxID : String) (owner : Nat) : Action Unit := do
  let (result, err) ← ask (.awaitProcess sandboxID)
  if ← ask (.exitWatchAccepted owner) then runnerExited server id result err
  else return ()

def taskBody : Task → Action Unit
  | .workflowJob event => handleWorkflowJob server event
  | .workflowRun event => handleWorkflowRunWebhook server event
  | .createRunner input newID => handleCreateRunner server input newID
  | .retryRunner id => handleRetryRunner id
  | .deleteRunner id => handleDeleteRunner server id
  | .runnerStdout id text => appendRunnerStdout id text
  | .processQueuedRequests rounds => processQueuedRequests server rounds
  | .sweepOnce => sweepOnce server
  | .reconcileOnce rounds => reconcileOnce server rounds
  | .recover id => do
      let _ ← recoverRunner server id
  | .startRunner claimed => do
      startRunner server claimed.id server.workerID
      ask .releaseSlot
  | .exitWatch id sandboxID owner => exitWatch server id sandboxID owner
  | .recoveredExitWatch id sandboxID owner =>
      recoveredExitWatch server id sandboxID owner

end Bodies

def taskEntry : Task → Bool
  | .startRunner _ | .exitWatch _ _ _ | .recoveredExitWatch _ _ _ => false
  | _ => true

def spawned (tid : Nat) : (op : Op) → op.Resp → List Task
  | .goStartRunner claimed, _ => [.startRunner claimed]
  | .startRunner _ input, .ok result => [.exitWatch input.requestID result.sandboxID tid]
  | .recoverRunner _ input, (result, none) =>
      [.recoveredExitWatch input.requestID result.sandboxID tid]
  | _, _ => []

def machine (server : Server) : RunnerMachine where
  body := taskBody server
  respond := respond server
  spawned := spawned
  entry := taskEntry
  crash := crash

/-- A process that has just opened its store. -/
def opened (table : RequestTable) : RunnerWorld := ⟨{ table := table }, [], []⟩

end Runnerd
