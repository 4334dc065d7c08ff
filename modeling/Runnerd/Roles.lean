import Runnerd.Custody

/-!
Who may touch which row. A goroutine enters a critical section with an id it
was given or with the id of a row; inside, it reads and writes the row of that
id and no other, and it never holds two of the runner mutexes. Only an attempt
makes the writes of an attempt, and only to the row it was claimed for.
-/

namespace Runnerd

open GoText Interaction Interleaving

/-- The ids that a goroutine may enter a section with, and whether it is an
attempt. -/
structure Role where
  names : String → Prop
  closed : ∀ id, names id → names (sanitizeID id)
  attempts : Bool

/-- The writes of `startRunner`. -/
def Writer.starts : Writer → Bool
  | .startCreating | .startSnapshot | .startRunning | .completeWithoutSandbox | .failStart
  | .deferQueued => true
  | _ => false

section Protocol

/-- The goroutine is outside every section, or in one of this row. -/
def Role.enters (role : Role) (held : Option String) (id : String) : Prop :=
  ∀ lock, held = some lock → role.names lock ∧ sanitizeID lock = sanitizeID id

def Role.permits (role : Role) (held : Option String) : Op → Prop
  | .lockRunner id => held = none ∧ role.names id
  | .unlockRunner id => held = some id
  | .readState id | .readRequest id | .releaseLease id _ => role.enters held id
  | .writeState writer st =>
      role.enters held st.id ∧ writer.starts = role.attempts ∧
        ∃ id, role.names id ∧ sanitizeID st.id = sanitizeID id
  | .goStartRunner claimed => sanitizeID claimed.id = claimed.id
  | .startRunner _ input =>
      role.attempts = true ∧ sanitizeID input.requestID = input.requestID
  | .recoverRunner _ input => sanitizeID input.requestID = input.requestID
  | _ => True

/-- The runner mutex that a goroutine holds after a call. -/
def heldLock (held : Option String) : Op → Option String
  | .lockRunner id => some id
  | .unlockRunner _ => none
  | _ => held

/-- The store gives the row that it is asked for, under the id it stores. -/
def storedID : (op : Op) → op.Resp → Prop
  | .readState id, .ok base => base.id = sanitizeID id
  | .readRequest id, .ok req => req.id = sanitizeID id
  | .claimNextRunnable _ _ _, .ok (some (_, claimed)) => sanitizeID claimed.id = claimed.id
  | .listActiveStates, .ok states => ∀ st ∈ states, sanitizeID st.id = st.id
  | .listMismatchedCompletedStates _, .ok states => ∀ st ∈ states, sanitizeID st.id = st.id
  | .listFailedWorkflowJobStates _, .ok states => ∀ st ∈ states, sanitizeID st.id = st.id
  | _, _ => True

def Role.protocol (role : Role) : Protocol Op Op.Resp (Option String) where
  permits := role.permits
  moves := heldLock
  trusts := storedID

/-- In no section but one of this row, whose id the goroutine may use. -/
structure Inside (role : Role) (held : Option String) (id : String) : Prop where
  named : role.names id
  enters : role.enters held id

variable {role : Role} {held : Option String} {id : String}

theorem enters_outside : role.enters none id := by
  intro lock held
  cases held

theorem inside_own (named : role.names id) : Inside role (some id) id := by
  refine ⟨named, ?_⟩
  intro lock held
  cases held
  exact ⟨named, rfl⟩

theorem inside_none (named : role.names id) : Inside role none id := ⟨named, enters_outside⟩

theorem Inside.write (inside : Inside role held id) {st : RunnerState}
    (same : st.id = sanitizeID id) {writer : Writer} (kind : writer.starts = role.attempts) :
    role.permits held (.writeState writer st) := by
  have stored : sanitizeID st.id = sanitizeID id := by rw [same, sanitizeID_idem]
  refine ⟨?_, kind, id, inside.named, stored⟩
  intro lock taken
  obtain ⟨named, own⟩ := inside.enters lock taken
  exact ⟨named, own.trans stored.symm⟩

/-- A program that leaves the mutexes as it found them. -/
abbrev Steady {α : Type} (role : Role) (held : Option String) (program : Action α) : Prop :=
  Follows role.protocol program (fun _ later => later = held) held

variable {α β : Type}

theorem steady_seq {program : Action α} {next : α → Action β} {post : β → Option String → Prop}
    (first : Steady role held program)
    (rest : ∀ value, Follows role.protocol (next value) post held) :
    Follows role.protocol (program >>= next) post held := by
  apply follows_seq
  refine follows_mono ?_ first
  rintro value _ rfl
  exact rest value

theorem withRunnerLock_plays {body : Action α} {post : α → Prop} (named : role.names id)
    (inside : Follows role.protocol body (fun value later => later = some id ∧ post value)
      (some id)) :
    Follows role.protocol (withRunnerLock id body) (fun value later => later = none ∧ post value)
      none := by
  refine follows_call ⟨rfl, named⟩ fun _ _ => follows_seq ?_
  refine follows_mono ?_ inside
  rintro value _ ⟨rfl, holds⟩
  refine follows_call rfl fun _ _ => ?_
  exact follows_return ⟨rfl, holds⟩

theorem withRunnerLock_steady {body : Action α} (named : role.names id)
    (inside : Steady role (some id) body) : Steady role none (withRunnerLock id body) := by
  have locked : Follows role.protocol (withRunnerLock id body)
      (fun _ later => later = none ∧ True) none :=
    withRunnerLock_plays named (follows_mono (fun _ _ same => ⟨same, True.intro⟩) inside)
  exact follows_mono (fun _ _ outcome => outcome.1) locked

/-- A section that opens with a read of its row. -/
theorem lockedRead_steady {next : Except GoError RunnerState → Action α} (named : role.names id)
    (failed : ∀ err, Steady role (some id) (next (.error err)))
    (found : Inside role (some id) id → ∀ st, st.id = sanitizeID id →
      Steady role (some id) (next (.ok st))) :
    Steady role none (withRunnerLock id (fetchState id >>= next)) := by
  apply withRunnerLock_steady named
  have inside := inside_own named
  refine follows_call inside.enters fun answer read => ?_
  cases answer with
  | error err => exact failed err
  | ok st => exact found inside st read

theorem writeStateOrLog_steady {writer : Writer} {st : RunnerState}
    (permitted : role.permits held (.writeState writer st)) :
    Steady role held (writeStateOrLog writer st) := by
  apply follows_call permitted
  intro _ _
  exact follows_return rfl

theorem putState_plays {writer : Writer} {st : RunnerState}
    {next : Except GoError Unit → Action α} {post : α → Option String → Prop}
    (inside : Inside role held id) (same : st.id = sanitizeID id)
    (kind : writer.starts = role.attempts)
    (rest : ∀ answer, Follows role.protocol (next answer) post held) :
    Follows role.protocol (putState writer st >>= next) post held :=
  follows_call (inside.write same kind) fun answer _ => rest answer

theorem dropLease_steady (enters : role.enters held id) (workerID : String) :
    Steady role held (dropLease id workerID) := by
  apply follows_call enters
  intro _ _
  exact follows_return rfl

end Protocol

section Stopping
variable {role : Role} {held : Option String} {id : String} {server : Server}

theorem stopSandboxWithTimeout_steady (enters : role.enters held id) (sandboxID : String)
    (pid : Nat) : Steady role held (stopSandboxWithTimeout id sandboxID pid) := by
  apply follows_call enters
  rintro (err | req) _
  · exact follows_return rfl
  apply follows_call True.intro
  rintro (err | service) _
  · exact follows_return rfl
  · exact follows_last True.intro fun _ _ => rfl

theorem cleanupStartedSandbox_steady (enters : role.enters held id) (result : StartResult) :
    Steady role held (cleanupStartedSandbox id result) := by
  unfold cleanupStartedSandbox
  split
  · exact follows_return rfl
  · exact steady_seq (stopSandboxWithTimeout_steady enters _ _) fun _ => follows_return rfl

theorem cleanupSandboxAfterExit_steady (enters : role.enters held id) (st : RunnerState) :
    Steady role held (cleanupSandboxAfterExit id st) := by
  unfold cleanupSandboxAfterExit
  split
  · exact follows_return rfl
  · apply steady_seq (stopSandboxWithTimeout_steady enters _ _)
    rintro (_ | err)
    · exact follows_return rfl
    · dsimp only
      split
      · exact follows_return rfl
      · exact follows_return rfl

theorem cleanupGitHubRunner_steady (st : RunnerState) :
    Steady role held (cleanupGitHubRunner st) := by
  unfold cleanupGitHubRunner
  split
  · exact follows_return rfl
  · split
    · exact follows_return rfl
    · exact follows_last True.intro fun _ _ => rfl

theorem originalWorkflowJobQueued_steady (st : RunnerState) :
    Steady role held (originalWorkflowJobQueued st) := by
  unfold originalWorkflowJobQueued
  split
  · exact follows_return rfl
  · apply follows_call True.intro
    rintro (err | job) _
    · exact follows_return rfl
    · exact follows_return rfl

/-- The answer of a requeue is about the request that was to be requeued. -/
def requeuedID (id : String) : Except GoError (Bool × RunnerState) → Prop
  | .ok (_, st) => st.id = sanitizeID id
  | .error _ => True

/-- The answer of a stop is about the request that was to be stopped. -/
def stoppedID (id : String) : Except GoError (RunnerState × Bool) → Prop
  | .ok (st, _) => st.id = sanitizeID id
  | .error _ => True

variable (bystander : role.attempts = false)
include bystander

theorem requeueMismatchedWorkflowJob_plays (inside : Inside role held id) {st : RunnerState}
    (same : st.id = sanitizeID id) (queued : Bool) :
    Follows role.protocol (requeueMismatchedWorkflowJob st queued)
      (fun answer later => later = held ∧ requeuedID id answer) held := by
  unfold requeueMismatchedWorkflowJob
  split
  · refine putState_plays inside same bystander.symm ?_
    rintro (err | _)
    · exact follows_return ⟨rfl, True.intro⟩
    · exact follows_return ⟨rfl, same⟩
  · refine putState_plays inside same bystander.symm ?_
    rintro (err | _)
    · exact follows_return ⟨rfl, True.intro⟩
    · exact follows_return ⟨rfl, same⟩

theorem stopVerdict_plays (inside : Inside role held id) {st : RunnerState}
    (same : st.id = sanitizeID id) (job : WorkflowJob) :
    Follows role.protocol (stopVerdict st job)
      (fun answer later => later = held ∧ stoppedID id answer) held := by
  unfold stopVerdict
  split
  · apply steady_seq (originalWorkflowJobQueued_steady st)
    intro queued
    apply follows_seq
    refine follows_mono ?_ (requeueMismatchedWorkflowJob_plays bystander inside same _)
    rintro (err | ⟨_ | _, next⟩) _ ⟨rfl, kept⟩
    · exact follows_return ⟨rfl, True.intro⟩
    · refine follows_call True.intro fun now _ => ?_
      refine putState_plays inside kept bystander.symm ?_
      rintro (err | _)
      · exact follows_return ⟨rfl, True.intro⟩
      · exact follows_return ⟨rfl, kept⟩
    · exact follows_return ⟨rfl, kept⟩
  · refine follows_call True.intro fun now _ => ?_
    have kept : (stopFinishedState st now).id = sanitizeID id :=
      (stopFinishedState_custody st now).1.id.trans same
    refine putState_plays inside kept bystander.symm ?_
    rintro (err | _)
    · exact follows_return ⟨rfl, True.intro⟩
    · exact follows_return ⟨rfl, kept⟩

theorem stopCleanup_plays (inside : Inside role held id) {st : RunnerState}
    (same : st.id = sanitizeID id) (job : WorkflowJob) :
    Follows role.protocol (stopCleanup server st job)
      (fun answer later => later = held ∧ stoppedID id answer) held := by
  apply steady_seq (cleanupGitHubRunner_steady st)
  rintro (_ | cleanupErr)
  · exact stopVerdict_plays bystander inside same job
  · refine follows_call True.intro fun now _ => ?_
    split
    · rename_i next scheduled
      have kept : next.id = sanitizeID id :=
        (scheduleCleanupRetry_custody scheduled).1.id.trans same
      refine putState_plays inside kept bystander.symm ?_
      rintro (err | _)
      · exact follows_return ⟨rfl, True.intro⟩
      · exact follows_return ⟨rfl, kept⟩
    · refine putState_plays inside same bystander.symm ?_
      rintro (err | _)
      · exact follows_return ⟨rfl, True.intro⟩
      · exact follows_return ⟨rfl, True.intro⟩

theorem stopMarked_plays (inside : Inside role held id) {st : RunnerState}
    (same : st.id = sanitizeID id) (job : WorkflowJob) :
    Follows role.protocol (stopMarked server id st job)
      (fun answer later => later = held ∧ stoppedID id answer) held := by
  unfold stopMarked
  split
  · exact stopCleanup_plays bystander inside same job
  · apply steady_seq (stopSandboxWithTimeout_steady inside.enters _ _)
    rintro (_ | stopErr)
    · exact stopCleanup_plays bystander inside same job
    · dsimp only
      split
      · exact stopCleanup_plays bystander inside same job
      · refine follows_call True.intro fun now _ => ?_
        split
        · rename_i next scheduled
          have kept : next.id = sanitizeID id :=
            (scheduleStopRetry_custody scheduled).1.id.trans same
          refine putState_plays inside kept bystander.symm ?_
          rintro (err | _)
          · exact follows_return ⟨rfl, True.intro⟩
          · exact follows_return ⟨rfl, kept⟩
        · refine putState_plays inside same bystander.symm ?_
          rintro (err | _)
          · exact follows_return ⟨rfl, True.intro⟩
          · exact follows_return ⟨rfl, True.intro⟩

theorem stopLocked_plays (inside : Inside role held id) (job : WorkflowJob) :
    Follows role.protocol (stopLocked server id job)
      (fun answer later => later = held ∧ stoppedID id answer) held := by
  refine follows_call inside.enters fun answer read => ?_
  cases answer with
  | error err => exact follows_return ⟨rfl, True.intro⟩
  | ok st =>
      have same : st.id = sanitizeID id := read
      dsimp only
      split
      · exact follows_return ⟨rfl, same⟩
      · split
        · split
          · refine putState_plays inside same bystander.symm ?_
            rintro (err | _)
            · exact follows_return ⟨rfl, True.intro⟩
            · exact follows_return ⟨rfl, same⟩
          · exact follows_return ⟨rfl, same⟩
        · have kept : (stopStoppingState st job).id = sanitizeID id :=
            (stopStoppingState_custody st job).1.id.trans same
          have marked : (stopStoppingState st job).advanced.id = sanitizeID id := kept
          refine putState_plays inside kept bystander.symm ?_
          rintro (err | _)
          · exact follows_return ⟨rfl, True.intro⟩
          · exact stopMarked_plays bystander inside marked job

theorem stopRunner_plays (named : role.names id) (job : WorkflowJob) :
    Follows role.protocol (stopRunner server id job)
      (fun answer later => later = none ∧ stoppedID id answer) none :=
  withRunnerLock_plays named (stopLocked_plays bystander (inside_own named) job)

theorem stopIfExists_steady (named : role.names id) (job : WorkflowJob) :
    Steady role none (stopIfExists server id job) := by
  refine follows_call enters_outside fun answer _ => ?_
  cases answer with
  | error err => exact follows_return rfl
  | ok _ =>
      apply follows_seq
      refine follows_mono ?_ (stopRunner_plays bystander named job)
      rintro _ _ ⟨rfl, _⟩
      exact follows_return rfl

end Stopping

section Forced
variable {role : Role} {held : Option String} {id : String} {server : Server}
  (bystander : role.attempts = false)
include bystander

theorem forceCleanup_steady (inside : Inside role held id) {st : RunnerState}
    (same : st.id = sanitizeID id) (stage reason message : String) :
    Steady role held (forceCleanup server st stage reason message) := by
  apply steady_seq (cleanupGitHubRunner_steady st)
  rintro (_ | cleanupErr)
  · refine follows_call True.intro fun now _ => ?_
    have kept : (forceFailedState st stage reason message now).id = sanitizeID id :=
      (forceFailedState_custody st stage reason message now).1.id.trans same
    exact writeStateOrLog_steady (inside.write kept bystander.symm)
  · refine follows_call True.intro fun now _ => ?_
    split
    · rename_i next scheduled
      have kept : next.id = sanitizeID id :=
        (scheduleCleanupRetry_custody scheduled).1.id.trans same
      exact writeStateOrLog_steady (inside.write kept bystander.symm)
    · refine follows_call True.intro fun now _ => ?_
      have kept : (forceFailedState (forceUnregisteredState st message cleanupErr) stage reason
          message now).id = sanitizeID id := by
        rw [(forceFailedState_custody _ stage reason message now).1.id,
          (forceUnregisteredState_same st message cleanupErr).1.id, same]
      exact writeStateOrLog_steady (inside.write kept bystander.symm)

theorem forceMarked_steady (inside : Inside role held id) {st : RunnerState}
    (same : st.id = sanitizeID id) (stage reason message : String) :
    Steady role held (forceMarked server id st stage reason message) := by
  unfold forceMarked
  split
  · exact forceCleanup_steady bystander inside same stage reason message
  · apply steady_seq (stopSandboxWithTimeout_steady inside.enters _ _)
    rintro (_ | err)
    · exact forceCleanup_steady bystander inside same stage reason message
    · dsimp only
      split
      · exact forceCleanup_steady bystander inside same stage reason message
      · exact writeStateOrLog_steady (inside.write same bystander.symm)

theorem failAndStopRunnerVersion_steady (named : role.names id) (expectedVersion : Nat)
    (stage reason message : String) :
    Steady role none (failAndStopRunnerVersion server id expectedVersion stage reason message) := by
  refine lockedRead_steady named (fun err => follows_return rfl) ?_
  intro inside st same
  dsimp only
  split
  · exact follows_return rfl
  · split
    · exact follows_return rfl
    · have marked : (forceStoppingState st stage reason message).advanced.id = sanitizeID id :=
        same
      refine putState_plays inside same bystander.symm ?_
      rintro (err | _)
      · exact follows_return rfl
      · exact forceMarked_steady bystander inside marked stage reason message

theorem retryOrFail_steady (named : role.names id) (stage : String) (err : GoError) :
    Steady role none (retryOrFail server id stage err) := by
  refine lockedRead_steady named (fun err => follows_return rfl) ?_
  intro inside current same
  dsimp only
  split
  · exact follows_return rfl
  · refine follows_call True.intro fun now _ => ?_
    have kept : (applyFailure server.cfg now current stage err true).id = sanitizeID id :=
      (applyFailure_custody server.cfg now current stage err).1.id.trans same
    exact writeStateOrLog_steady (inside.write kept bystander.symm)

theorem markWorkflowJobInProgress_steady (named : role.names id) (job : WorkflowJob) :
    Steady role none (markWorkflowJobInProgress id job) := by
  refine lockedRead_steady named (fun err => follows_return rfl) ?_
  intro inside st same
  dsimp only
  split
  · exact follows_return rfl
  · split
    · refine putState_plays inside same bystander.symm ?_
      rintro (err | _)
      · exact follows_return rfl
      · exact follows_return rfl
    · exact follows_return rfl

theorem markRunnerJobStarted_steady (named : role.names id) :
    Steady role none (markRunnerJobStarted id) := by
  refine lockedRead_steady named (fun err => follows_return rfl) ?_
  intro inside st same
  dsimp only
  split
  · exact follows_return rfl
  · exact writeStateOrLog_steady (inside.write same bystander.symm)

theorem appendRunnerStdout_steady (named : role.names id) (text : String) :
    Steady role none (appendRunnerStdout id text) := by
  unfold appendRunnerStdout
  split
  · exact markRunnerJobStarted_steady bystander named
  · exact follows_return rfl

end Forced

section Starting
variable {role : Role} {id : String} {server : Server} (attempt : role.attempts = true)
include attempt

theorem failStartWith_steady {held : Option String} (inside : Inside role held id)
    {st : RunnerState} (same : st.id = sanitizeID id) (stage : String) (err : GoError) :
    Steady role held (failStartWith server st stage err) := by
  refine follows_call True.intro fun now _ => ?_
  have kept : (applyFailure server.cfg now st stage err true).id = sanitizeID id :=
    (applyFailure_custody server.cfg now st stage err).1.id.trans same
  exact writeStateOrLog_steady (inside.write kept attempt.symm)

theorem failStart_steady (named : role.names id) {st : RunnerState} (same : st.id = sanitizeID id)
    (stage : String) (err : GoError) : Steady role none (failStart server id st stage err) := by
  refine lockedRead_steady named ?_ ?_
  · intro _
    exact failStartWith_steady attempt (inside_own named) same stage err
  · intro inside current read
    dsimp only
    split
    · exact dropLease_steady inside.enters _
    · exact failStartWith_steady attempt inside read stage err

theorem completeWithoutSandbox_steady (named : role.names id) (job : WorkflowJob) :
    Steady role none (completeWithoutSandbox id job) := by
  refine lockedRead_steady named (fun err => follows_return rfl) ?_
  intro inside st same
  dsimp only
  split
  · exact follows_return rfl
  · refine follows_call True.intro fun now _ => ?_
    have kept : (completeWithoutSandboxState st job now).id = sanitizeID id :=
      (completeWithoutSandboxState_custody st job now).1.id.trans same
    refine putState_plays inside kept attempt.symm ?_
    rintro (err | _)
    · exact follows_return rfl
    · exact follows_last True.intro fun _ _ => rfl

theorem deferQueuedRequest_steady (named : role.names id) (workerID : String)
    (nextAttempt : Time) : Steady role none (deferQueuedRequest id workerID nextAttempt) := by
  refine lockedRead_steady named (fun err => dropLease_steady (inside_own named).enters _) ?_
  intro inside st same
  dsimp only
  split
  · exact dropLease_steady inside.enters _
  · refine putState_plays inside same attempt.symm ?_
    rintro (err | _)
    · exact dropLease_steady inside.enters _
    · exact follows_return rfl

theorem ensureWorkflowJobStillQueued_steady (named : role.names id) {req : RunnerRequest}
    (same : req.id = sanitizeID id) : Steady role none (ensureWorkflowJobStillQueued req) := by
  unfold ensureWorkflowJobStillQueued
  split
  · exact follows_return rfl
  · refine follows_call True.intro fun answer _ => ?_
    cases answer with
    | error err => exact follows_return rfl
    | ok job =>
        dsimp only
        split
        · exact follows_return rfl
        · have own : role.names req.id := by
            rw [same]
            exact role.closed id named
          exact steady_seq (completeWithoutSandbox_steady attempt own job) fun _ =>
            follows_return rfl

omit attempt in
theorem resolveTemplate_steady {held : Option String} (service : SandboxService)
    (profile : RunnerProfile) : Steady role held (resolveTemplate service profile) := by
  unfold resolveTemplate
  split
  · exact follows_return rfl
  · split
    · exact follows_return rfl
    · refine follows_call True.intro fun answer _ => ?_
      cases answer with
      | error err => exact follows_return rfl
      | ok templates => exact follows_return rfl

theorem startRecorded_steady (named : role.names id) (result : StartResult) :
    Steady role none (startRecorded id result) := by
  have inside := inside_own named
  have leaves : Follows role.protocol (do
      unlockRunner id
      cleanupStartedSandbox id result : Action Unit) (fun _ later => later = none) (some id) :=
    follows_call rfl fun _ _ => cleanupStartedSandbox_steady enters_outside result
  refine follows_call ⟨rfl, named⟩ fun _ _ => follows_call inside.enters fun answer read => ?_
  cases answer with
  | error err => exact leaves
  | ok current =>
      have same : current.id = sanitizeID id := read
      dsimp only
      split
      · exact leaves
      · refine putState_plays inside same attempt.symm ?_
        rintro (err | _)
        · exact leaves
        · refine follows_call rfl fun _ _ => ?_
          exact follows_last True.intro fun _ _ => rfl

theorem startSandbox_steady (named : role.names id) {req : RunnerRequest} {st : RunnerState}
    (request : req.id = sanitizeID id) (same : st.id = sanitizeID id) (profile : RunnerProfile)
    (service : SandboxService) :
    Steady role none (startSandbox server id req st profile service) := by
  have fails (stage : String) (err : GoError) :
      Steady role none (failStart server id st stage err) :=
    failStart_steady attempt named same stage err
  apply steady_seq (resolveTemplate_steady service profile)
  rintro (err | templateID)
  · exact fails _ err
  refine follows_call True.intro fun answer _ => ?_
  cases answer with
  | error err => exact fails _ err
  | ok token =>
      refine follows_call True.intro fun answer _ => ?_
      cases answer with
      | error err => exact fails _ err
      | ok repositoryURL =>
          have stored : sanitizeID req.id = req.id := by rw [request, sanitizeID_idem]
          refine follows_call ⟨attempt, stored⟩ fun answer _ => ?_
          cases answer with
          | error err => exact fails _ err
          | ok result => exact startRecorded_steady attempt named result

theorem startCreated_steady (named : role.names id) {req : RunnerRequest} {st : RunnerState}
    (request : req.id = sanitizeID id) (same : st.id = sanitizeID id) (workerID : String)
    (profile : RunnerProfile) :
    Steady role none (startCreated server id workerID req st profile) := by
  apply steady_seq (ensureWorkflowJobStillQueued_steady attempt named request)
  rintro (err | _ | _)
  · exact failStart_steady attempt named same _ err
  · exact dropLease_steady enters_outside _
  refine follows_call True.intro fun answer _ => ?_
  cases answer with
  | error err => exact failStart_steady attempt named same _ err
  | ok service =>
      dsimp only
      split
      · refine follows_call enters_outside fun answer read => ?_
        cases answer with
        | error err => exact failStart_steady attempt named same _ _
        | ok current =>
            have kept : (snapshotState current service).id = sanitizeID id := read
            refine putState_plays (inside_none named) kept attempt.symm ?_
            rintro (err | _)
            · exact failStart_steady attempt named kept _ _
            · exact startSandbox_steady attempt named request same profile service
      · exact startSandbox_steady attempt named request same profile service

omit attempt in
theorem profileAtCapacityFor_steady {held : Option String} (profile : RunnerProfile) :
    Steady role held (profileAtCapacityFor profile) := by
  unfold profileAtCapacityFor
  split
  · exact follows_return rfl
  · refine follows_call True.intro fun answer _ => ?_
    cases answer with
    | error err => exact follows_return rfl
    | ok inFlight => exact follows_return rfl

omit attempt in
/-- `startRunner` gives the request back. -/
theorem startReleased_plays (workerID : String) :
    Follows role.protocol (do
      ask .unlockAdmission
      unlockRunner id
      dropLease id workerID : Action Unit) (fun _ later => later = none) (some id) :=
  follows_call True.intro fun _ _ => follows_call rfl fun _ _ => dropLease_steady enters_outside _

theorem startAdmitted_plays (named : role.names id) {req : RunnerRequest} {st : RunnerState}
    (request : req.id = sanitizeID id) (same : st.id = sanitizeID id) (workerID : String)
    (profile : RunnerProfile) :
    Follows role.protocol (startAdmitted server id workerID req st profile)
      (fun _ later => later = none) (some id) := by
  refine follows_call True.intro fun now _ => ?_
  refine putState_plays (inside_own named) same attempt.symm ?_
  rintro (err | _)
  · exact startReleased_plays workerID
  · refine follows_call True.intro fun _ _ => follows_call rfl fun _ _ => ?_
    have kept : (startCreatingState st workerID (now + server.cfg.workerLeaseTTL)).id =
      sanitizeID id := same
    exact startCreated_steady attempt named request kept workerID profile

theorem startDeferred_plays (named : role.names id) (workerID : String) :
    Follows role.protocol (startDeferred id workerID) (fun _ later => later = none) (some id) := by
  refine follows_call True.intro fun _ _ => follows_call rfl fun _ _ => ?_
  refine follows_call True.intro fun now _ => ?_
  exact deferQueuedRequest_steady attempt named workerID _

theorem startRunner_steady (named : role.names id) (workerID : String) :
    Steady role none (startRunner server id workerID) := by
  have inside := inside_own named
  refine follows_call ⟨rfl, named⟩ fun _ _ => follows_call inside.enters fun answer request => ?_
  cases answer with
  | error err => exact follows_last rfl fun _ _ => rfl
  | ok req =>
      refine follows_call inside.enters fun answer read => ?_
      cases answer with
      | error err => exact follows_last rfl fun _ _ => rfl
      | ok st =>
          dsimp only
          split
          · exact follows_call rfl fun _ _ => dropLease_steady enters_outside _
          · refine follows_call True.intro fun answer _ => ?_
            cases answer with
            | error err =>
                exact follows_call rfl fun _ _ => failStart_steady attempt named read _ _
            | ok profile =>
                refine follows_call True.intro fun _ _ => follows_call True.intro fun answer _ => ?_
                cases answer with
                | error err => exact startReleased_plays workerID
                | ok inFlight =>
                    dsimp only
                    split
                    · exact startDeferred_plays attempt named workerID
                    · split
                      · exact startAdmitted_plays attempt named request read workerID profile
                      · apply steady_seq (profileAtCapacityFor_steady profile)
                        rintro (err | _ | _)
                        · exact startReleased_plays workerID
                        · exact startAdmitted_plays attempt named request read workerID profile
                        · exact startDeferred_plays attempt named workerID

end Starting

end Runnerd
