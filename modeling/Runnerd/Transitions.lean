import Runnerd.Goroutines

/-!
The transition table of a runner request. `Edit` lists every `WriteState` of
the server: from which row it starts, what the goroutine has seen before it
writes, and the record it writes. `contract` says that a goroutine writes only
such edits, each over a row it has read or written itself.
-/

namespace Runnerd

open GoText Interaction Interleaving

section Memory

def occupied (status : Status) : Bool := status == .creating || status == .running

/-- The goroutine has read the row as `base`. -/
def Reads (past : List Answered) (base : RunnerState) : Prop :=
  ∃ id, (⟨.readState id, .ok base⟩ : Answered) ∈ past

/-- The goroutine has written `st` over its row. -/
def Wrote (past : List Answered) (st : RunnerState) : Prop :=
  ∃ writer, (⟨.writeState writer st, .ok ()⟩ : Answered) ∈ past

/-- The goroutine has read the row as `base`, or its own write left it so. -/
def Knows (past : List Answered) (base : RunnerState) : Prop :=
  Reads past base ∨ ∃ st, Wrote past st ∧ base = st.advanced

/-- The goroutine has seen this row creating or running. -/
def SeenActive (past : List Answered) (id : String) : Prop :=
  ∃ old : RunnerState, old.id = id ∧ occupied old.status = true ∧
    (Reads past old ∨ ∃ states, (⟨.listActiveStates, .ok states⟩ : Answered) ∈ past ∧ old ∈ states)

/-- The goroutine's last two calls locked the row and read it as `base`. -/
def LockedRead (past : List Answered) (base : RunnerState) : Prop :=
  ∃ id earlier, past = ⟨.readState id, .ok base⟩ :: ⟨.lockRunner id, ()⟩ :: earlier

/-- A state the goroutine has already written over. -/
def Stale (past : List Answered) (st : RunnerState) : Prop :=
  ∃ written, Wrote past written ∧ written.id = st.id ∧ written.version = st.version

/-- `StopRunner` for this sandbox returned success or a gone error. -/
def stopConfirmed (sandboxID : String) : Answered → Bool
  | ⟨.stopRunner _ stopped _, answer⟩ => stopped == sandboxID && Option.all isSandboxGone answer
  | _ => false

def Confirmed (past : List Answered) (sandboxID : String) : Prop :=
  ∃ call ∈ past, stopConfirmed sandboxID call = true

/-- `stopSandboxWithTimeout` failed before it reached `StopRunner`, with an
error that its callers take for a gone sandbox. -/
def lookupTakenForGone : Answered → Bool
  | ⟨.readRequest _, .error err⟩ =>
      isSandboxGone (err.wrap "read runner request for sandbox service: ")
  | ⟨.resolveSandboxService _, .error err⟩ => isSandboxGone err
  | _ => false

/-- A step of `stopSandboxWithTimeout` that failed. -/
def stopRefused : Answered → Bool
  | ⟨.readRequest _, .error _⟩ | ⟨.resolveSandboxService _, .error _⟩
  | ⟨.stopRunner _ _ _, some _⟩ => true
  | _ => false

/-- What the server holds to be the end of a sandbox. -/
def Released (past : List Answered) (sandboxID : String) : Prop :=
  sandboxID = "" ∨ Confirmed past sandboxID ∨ ∃ call ∈ past, lookupTakenForGone call = true

variable {past later : List Answered}

theorem Reads.extend {base : RunnerState} (reads : Reads past base) (extends_ : past <:+ later) :
    Reads later base :=
  reads.imp fun _ member => extends_.subset member

theorem Wrote.extend {st : RunnerState} (wrote : Wrote past st) (extends_ : past <:+ later) :
    Wrote later st :=
  wrote.imp fun _ member => extends_.subset member

theorem SeenActive.extend {id : String} (seen : SeenActive past id) (extends_ : past <:+ later) :
    SeenActive later id := by
  obtain ⟨old, same, active, reads | ⟨states, listed, member⟩⟩ := seen
  · exact ⟨old, same, active, .inl (reads.extend extends_)⟩
  · exact ⟨old, same, active, .inr ⟨states, extends_.subset listed, member⟩⟩

theorem Knows.extend {base : RunnerState} (knows : Knows past base) (extends_ : past <:+ later) :
    Knows later base :=
  knows.imp (fun reads => reads.extend extends_) fun ⟨st, wrote, same⟩ =>
    ⟨st, wrote.extend extends_, same⟩

theorem Stale.extend {st : RunnerState} (stale : Stale past st) (extends_ : past <:+ later) :
    Stale later st :=
  stale.imp fun _ ⟨wrote, same⟩ => ⟨wrote.extend extends_, same⟩

theorem Released.extend {sandboxID : String} (released : Released past sandboxID)
    (extends_ : past <:+ later) : Released later sandboxID := by
  refine released.imp_right (Or.imp ?_ ?_)
  · rintro ⟨call, member, stopped⟩
    exact ⟨call, extends_.subset member, stopped⟩
  · rintro ⟨call, member, mistaken⟩
    exact ⟨call, extends_.subset member, mistaken⟩

end Memory

section Admission

/-- Whether the last thing the goroutine did to `admissionMu` was to lock it. -/
def holdsAdmission : List Answered → Bool
  | [] => false
  | ⟨.lockAdmission, _⟩ :: _ => true
  | ⟨.unlockAdmission, _⟩ :: _ => false
  | _ :: past => holdsAdmission past

/-- What `startRunner` does before it counts. -/
def admissionPrelude (id : String) (req : RunnerRequest) (base : RunnerState)
    (profile : RunnerProfile) : List Answered :=
  [⟨.lockAdmission, ()⟩, ⟨.getProfile req.profileName, .ok profile⟩, ⟨.readState id, .ok base⟩,
    ⟨.readRequest id, .ok req⟩, ⟨.lockRunner id, ()⟩]

/-- Everything `startRunner` has been answered when it writes `creating`. -/
inductive Admission (server : Server) : List Answered → RunnerState → Prop where
  | uncapped {id : String} {req : RunnerRequest} {base : RunnerState} {profile : RunnerProfile}
      {count : Nat} {now : Time} (unstopped : base.status ≠ .completed ∧ base.status ≠ .stopping)
      (room : count < server.cfg.maxConcurrentRunners)
      (free : req.profileName = "" ∨ profile.maxConcurrency ≤ 0) :
      Admission server
        (⟨.now, now⟩ :: ⟨.inFlightCount, .ok count⟩ :: admissionPrelude id req base profile) base
  | capped {id : String} {req : RunnerRequest} {base : RunnerState} {profile : RunnerProfile}
      {count profileCount : Nat} {now : Time}
      (unstopped : base.status ≠ .completed ∧ base.status ≠ .stopping)
      (room : count < server.cfg.maxConcurrentRunners)
      (profileRoom : (profileCount : Int) < profile.maxConcurrency) :
      Admission server
        (⟨.now, now⟩ :: ⟨.inFlightCountForProfile profile.name, .ok profileCount⟩ ::
          ⟨.inFlightCount, .ok count⟩ :: admissionPrelude id req base profile) base

end Admission

section Edits

/-- The stages `startRunner` and the sweeper give a failed attempt. -/
def attemptStages : List String :=
  ["profile_lookup", "github_job_status", "sandbox_config", "template_resolution",
    "github_registration", "github_runner_url", "sandbox_start", "sweeper_create_timeout"]

/-- The snapshot could not be written, and then the row could not be read. -/
def SnapshotLost (past : List Answered) (base : RunnerState) (service : SandboxService) : Prop :=
  ∃ now id readErr writeErr earlier, past =
    ⟨.now, now⟩ :: ⟨.readState id, .error readErr⟩ :: ⟨.lockRunner id, ()⟩ ::
      ⟨.writeState .startSnapshot (snapshotState base service), .error writeErr⟩ :: earlier

/-- GitHub says the original job waits, or does not say. -/
def reportsQueued : Except GoError WorkflowJob → Bool
  | .error _ => true
  | .ok job => equalFold (trimSpace job.status) "queued"

/-- The reconciler looks at a completed request whose runner took another job. -/
structure Mismatched (past : List Answered) (base : RunnerState) : Prop where
  reads : Reads past base
  mismatched : mismatchedCompleted base = true
  listed : ∃ limit states,
    (⟨.listMismatchedCompletedStates limit, .ok states⟩ : Answered) ∈ past
  reported : ∃ repository answer,
    (⟨.getWorkflowJob repository base.workflowJobID, answer⟩ : Answered) ∈ past ∧
      reportsQueued answer = true

theorem Mismatched.completed {past : List Answered} {base : RunnerState}
    (found : Mismatched past base) : base.status = .completed := by
  have mismatched := found.mismatched
  simp only [mismatchedCompleted, Bool.and_eq_true, beq_iff_eq] at mismatched
  exact mismatched.1.1.1

/-- An exit callback up to the cleanup of its sandbox. -/
structure Exits (past : List Answered) (base st : RunnerState) (err cleanup : Option GoError) :
    Prop where
  reads : Reads past base
  occupied : occupied base.status = true
  cleaned : cleanup = none → Released past base.sandboxID
  refused : cleanup.isSome = true → ∃ call ∈ past, stopRefused call = true
  result : ∃ sandboxID result now, (⟨.awaitProcess sandboxID, (result, err)⟩ : Answered) ∈ past ∧
    st = exitCleanedState (exitedState base result err) err cleanup now

/-- A goroutine that marked the row stopping and then ended its sandbox. -/
structure Ends (past : List Answered) (base : RunnerState) : Prop where
  stopping : base.status = .stopping
  released : Released past base.sandboxID

/-- A recovery that reads the row again at the version it recovered. -/
structure Recovers (past : List Answered) (base : RunnerState) (result : StartResult) : Prop where
  occupied : occupied base.status = true
  attached : ∃ st service pid timeout, Reads past st ∧ base.version = st.version ∧
    (⟨.readState st.id, .ok base⟩ : Answered) ∈ past ∧
    (⟨.recoverRunner service ⟨st.id, st.sandboxID, pid, timeout⟩, (result, none)⟩ : Answered) ∈ past

/-- `WriteState` by `writer` takes the row from `base` to the record given. -/
inductive Edit (server : Server) (past : List Answered) :
    Writer → RunnerState → RunnerState → Prop where
  | startCreating {base : RunnerState} (admission : Admission server past base) (expires : Time) :
      Edit server past .startCreating base (startCreatingState base server.workerID expires)
  | startSnapshot {base : RunnerState} (reads : Reads past base) (service : SandboxService) :
      Edit server past .startSnapshot base (snapshotState base service)
  | startRunning {base : RunnerState} {result : StartResult} (creating : base.status = .creating)
      (started : ∃ service input,
        (⟨.startRunner service input, .ok result⟩ : Answered) ∈ past) :
      Edit server past .startRunning base (startRunningState base result)
  | completeWithoutSandbox {base : RunnerState}
      (unplaced : base.status ≠ .completed ∧ base.status ≠ .stopping ∧ base.status ≠ .running)
      (job : WorkflowJob) (now : Time) :
      Edit server past .completeWithoutSandbox base (completeWithoutSandboxState base job now)
  | markInProgress {base : RunnerState} (reads : Reads past base)
      (unstopped : base.status ≠ .completed ∧ base.status ≠ .stopping) (job : WorkflowJob) :
      Edit server past .markInProgress base (assignJob base job)
  | markJobStarted {base : RunnerState} (reads : Reads past base)
      (unstopped : base.status ≠ .completed ∧ base.status ≠ .stopping) :
      Edit server past .markJobStarted base (jobStartedState base)
  | failStart {base : RunnerState}
      (unstopped : base.status ≠ .completed ∧ base.status ≠ .stopping)
      {stage : String} (known : stage ∈ attemptStages) (err : GoError) (now : Time) :
      Edit server past .failStart base (applyFailure server.cfg now base stage err true)
  | failSnapshot {base : RunnerState} {service : SandboxService}
      (refused : SnapshotLost past base service) (err : GoError) (now : Time) :
      Edit server past .failStart base
        (applyFailure server.cfg now (snapshotState base service) "sandbox_config" err true)
  | exited {base st : RunnerState} {err cleanup : Option GoError}
      (exits : Exits past base st err cleanup) : Edit server past .exited base st
  | exitedUnregistered {base st : RunnerState} {err cleanup : Option GoError}
      (exits : Exits past base st err cleanup) (cleanupErr : GoError)
      (registered : ∃ repository group name,
        (⟨.removeRunnerByName repository group name, some cleanupErr⟩ : Answered) ∈ past) :
      Edit server past .exited base (exitUnregisteredState st err cleanupErr)
  | exitedCleanupRetry {base st next : RunnerState} {err cleanup : Option GoError}
      (exits : Exits past base st err cleanup) {now : Time} {cleanupErr : GoError}
      (scheduled : scheduleCleanupRetry server.cfg now st cleanupErr = some next) :
      Edit server past .exitedCleanupRetry base next
  | keepRunning {base : RunnerState} (busy : ∃ repository group runners id earlier,
        past = ⟨.readState id, .ok base⟩ :: ⟨.lockRunner id, ()⟩ ::
          ⟨.listRunners repository group, .ok runners⟩ :: earlier)
      (occupied : occupied base.status = true) (message : String) :
      Edit server past .keepRunning base (keepRunningState base message)
  | recoverQueued {base : RunnerState} (reads : Reads past base) (queued : base.status = .queued) :
      Edit server past .recoverQueued base (unleasedState base)
  | recoverReconnected {base : RunnerState} {result : StartResult}
      (recovers : Recovers past base result) :
      Edit server past .recoverReconnected base (reconnectedState base result)
  | requeueInterrupted {base : RunnerState} (creating : base.status = .creating) :
      Edit server past .requeueInterrupted base (interruptedState base)
  | stopAssignment {base : RunnerState} (completed : base.status = .completed)
      (job : WorkflowJob) : Edit server past .stopAssignment base (assignJob base job)
  | stopStopping {base : RunnerState} (locked : LockedRead past base)
      (uncompleted : base.status ≠ .completed) (job : WorkflowJob) :
      Edit server past .stopStopping base (stopStoppingState base job)
  | stopRetry {base next : RunnerState} (stopping : base.status = .stopping) {now : Time}
      {err : GoError} (scheduled : scheduleStopRetry server.cfg now base err = some next) :
      Edit server past .stopRetry base next
  | stopFailed {base : RunnerState} (stopping : base.status = .stopping) (message : String) :
      Edit server past .stopFailed base (stopFailedState base message)
  | stopCleanupRetry {base next : RunnerState} (ends : Ends past base) {now : Time}
      {err : GoError} (scheduled : scheduleCleanupRetry server.cfg now base err = some next) :
      Edit server past .stopCleanupRetry base next
  | stopCleanupFailed {base : RunnerState} (ends : Ends past base) (message : String) :
      Edit server past .stopCleanupFailed base (cleanupFailedState base message)
  | mismatchInspected {base : RunnerState} (ended : base.status = .completed ∨ Ends past base) :
      Edit server past .mismatchInspected base (unassignedState base)
  | mismatchRequeued {base : RunnerState} (ended : Mismatched past base ∨ Ends past base) :
      Edit server past .mismatchRequeued base (mismatchRequeuedState base)
  | stopMismatched {base : RunnerState} (ends : Ends past base) (now : Time) :
      Edit server past .stopMismatched base (stopMismatchedState base now)
  | stopFinished {base : RunnerState} (ends : Ends past base) (now : Time) :
      Edit server past .stopFinished base (stopFinishedState base now)
  | forceStopping {base : RunnerState}
      (unfinished : base.status ≠ .completed ∧ base.status ≠ .failed)
      (seen : ∃ id, SeenActive past id ∧ (⟨.readState id, .ok base⟩ : Answered) ∈ past)
      (stage reason message : String) :
      Edit server past .forceStopping base (forceStoppingState base stage reason message)
  | forceStopFailed {base : RunnerState} (stopping : base.status = .stopping)
      (message : String) : Edit server past .forceStopFailed base (stopFailedState base message)
  | forceCleanupRetry {base next : RunnerState} (ends : Ends past base) {now : Time}
      {err : GoError} (scheduled : scheduleCleanupRetry server.cfg now base err = some next) :
      Edit server past .forceCleanupRetry base next
  | forceFailed {base : RunnerState} (ends : Ends past base) (stage reason message : String)
      (now : Time) :
      Edit server past .forceFailed base (forceFailedState base stage reason message now)
  | forceUnregistered {base : RunnerState} (ends : Ends past base)
      (stage reason message : String) (cleanupErr : GoError) (now : Time) :
      Edit server past .forceFailed base
        (forceFailedState (forceUnregisteredState base message cleanupErr) stage reason message now)
  | retryOrFail {base : RunnerState}
      (unfinished : base.status ≠ .completed ∧ base.status ≠ .failed)
      (seen : ∃ id, SeenActive past id ∧ (⟨.readState id, .ok base⟩ : Answered) ∈ past)
      {stage : String} (known : stage ∈ attemptStages) (err : GoError) (now : Time) :
      Edit server past .retryOrFail base (applyFailure server.cfg now base stage err true)
  | deferQueued {base : RunnerState} (reads : Reads past base) (queued : base.status = .queued)
      (owned : base.leaseOwner = server.workerID) (nextAttempt : Time) :
      Edit server past .deferQueued base (deferredState base nextAttempt)
  | completeReconciled {base : RunnerState} (failed : recoverableFailure base = true)
      (now : Time) :
      Edit server past .completeReconciled base (completeReconciledState base now)

end Edits

section Contract

/-- What the next call of a goroutine may be, after what it was answered. -/
def contract (server : Server) (past : List Answered) : Op → Prop
  | .writeState writer st => Stale past st ∨ ∃ base, Knows past base ∧ Edit server past writer base st
  | .createRequest _ _ status failureStage failureReason errorMessage =>
      (status = .queued ∧ failureStage = "" ∧ failureReason = "" ∧ errorMessage = "") ∨
        (status = .failed ∧ failureStage = "admission")
  | .unlockAdmission => holdsAdmission past = true
  | .stopRunner service _ _ => ∃ id req earlier,
      past = ⟨.resolveSandboxService req, .ok service⟩ :: ⟨.readRequest id, .ok req⟩ :: earlier
  | _ => True

end Contract

end Runnerd
