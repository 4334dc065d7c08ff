import Runnerd.Coherence

/-!
Who answers for a sandbox. A request's custody is its status, the sandbox it
names, and whether its failure is one the reconciler may turn into a
completion. `Custody.Step` is the abstract life cycle of a request: what each
writer may do to its custody, given which sandboxes it knows to be released.
Every edit of the server refines it, and so does every change of a row.
-/

namespace Runnerd

open GoText Interaction Interleaving Versioned

structure Custody where
  status : Status
  sandbox : String
  settled : Bool
  deriving DecidableEq, Repr

def settledStage (stage : String) : Bool := stage == "recovery" || stage == "cleanup"

def Core.custody (core : Core) : Custody :=
  ⟨core.status, core.sandboxID, settledStage core.failureStage⟩

def custody (st : RunnerState) : Custody := (core st).custody

section Steps

/-- The writers that leave the custody alone. -/
def Writer.passive : Writer → Bool
  | .startSnapshot | .markInProgress | .markJobStarted | .recoverQueued | .stopAssignment
  | .mismatchInspected | .deferQueued => true
  | _ => false

/-- The writers of a stop whose sandbox is released. -/
def Writer.ends : Writer → Bool
  | .stopCleanupRetry | .stopCleanupFailed | .stopMismatched | .stopFinished
  | .forceCleanupRetry | .forceFailed => true
  | _ => false

inductive Custody.Step (released : String → Prop) : Writer → Custody → Custody → Prop where
  | kept {writer : Writer} (passive : writer.passive = true) (c : Custody) :
      Step released writer c c
  | admitted {c : Custody} (unstopped : c.status ≠ .completed ∧ c.status ≠ .stopping) :
      Step released .startCreating c { c with status := .creating }
  | placed {c : Custody} (creating : c.status = .creating) (sandbox : String) :
      Step released .startRunning c { c with status := .running, sandbox := sandbox }
  | stayed {c : Custody} (occupied : occupied c.status = true) :
      Step released .keepRunning c { c with status := .running }
  | reattached {c : Custody} (occupied : occupied c.status = true) (sandbox : String) :
      Step released .recoverReconnected c ⟨.running, sandbox, false⟩
  | dropped {writer : Writer} (drops : writer = .failStart ∨ writer = .retryOrFail) (c : Custody)
      {status : Status} (waits : status = .queued ∨ status = .failed) :
      Step released writer c ⟨status, "", false⟩
  | unplaced {c : Custody}
      (unplaced : c.status ≠ .completed ∧ c.status ≠ .stopping ∧ c.status ≠ .running) :
      Step released .completeWithoutSandbox c ⟨.completed, c.sandbox, false⟩
  | interrupted {c : Custody} (creating : c.status = .creating) :
      Step released .requeueInterrupted c ⟨.queued, "", false⟩
  | marked {c : Custody} (uncompleted : c.status ≠ .completed) :
      Step released .stopStopping c { c with status := .stopping }
  | forced {c : Custody} (unfinished : c.status ≠ .completed ∧ c.status ≠ .failed)
      (settled : Bool) : Step released .forceStopping c ⟨.stopping, c.sandbox, settled⟩
  | rescheduled {c : Custody} (stopping : c.status = .stopping) :
      Step released .stopRetry c ⟨.stopping, c.sandbox, false⟩
  | abandoned {writer : Writer} (abandons : writer = .stopFailed ∨ writer = .forceStopFailed)
      {c : Custody} (stopping : c.status = .stopping) :
      Step released writer c ⟨.failed, c.sandbox, false⟩
  | ended {writer : Writer} (ends : writer.ends = true) {c : Custody}
      (stopping : c.status = .stopping) (free : released c.sandbox) {status : Status}
      (finished : status = .stopping ∨ status = .completed ∨ status = .failed) (settled : Bool) :
      Step released writer c ⟨status, c.sandbox, settled⟩
  | requeued {c : Custody}
      (finished : c.status = .completed ∨ (c.status = .stopping ∧ released c.sandbox)) :
      Step released .mismatchRequeued c ⟨.queued, "", false⟩
  | exitRescheduled {c : Custody} (occupied : occupied c.status = true) (settled : Bool) :
      Step released .exitedCleanupRetry c ⟨.stopping, c.sandbox, settled⟩
  | exitCompleted {c : Custody} (occupied : occupied c.status = true)
      (free : released c.sandbox) : Step released .exited c { c with status := .completed }
  | exitFailed {c : Custody} (occupied : occupied c.status = true) (settled : Bool) :
      Step released .exited c ⟨.failed, c.sandbox, settled⟩
  | reconciled {c : Custody} (failed : c.status = .failed) (settled : c.settled = true) :
      Step released .completeReconciled c ⟨.completed, c.sandbox, false⟩

end Steps

section Records
variable {server : Server} {past : List Answered}

/-- The columns no writer touches. -/
structure SameRequest (base st : RunnerState) : Prop where
  id : st.id = base.id
  version : st.version = base.version
  profile : st.profileName = base.profileName

theorem SameRequest.trans {base middle st : RunnerState} (first : SameRequest base middle)
    (second : SameRequest middle st) : SameRequest base st :=
  ⟨second.id.trans first.id, second.version.trans first.version,
    second.profile.trans first.profile⟩

-- The records are unfolded before they are compared: as they stand, their
-- conditional columns would be evaluated.
theorem stopStoppingState_custody (st : RunnerState) (job : WorkflowJob) :
    SameRequest st (stopStoppingState st job) ∧
      custody (stopStoppingState st job) = { custody st with status := .stopping } := by
  unfold stopStoppingState recordAssignedJob
  split <;> exact ⟨⟨rfl, rfl, rfl⟩, rfl⟩

theorem completeWithoutSandboxState_custody (st : RunnerState) (job : WorkflowJob) (now : Time) :
    SameRequest st (completeWithoutSandboxState st job now) ∧
      custody (completeWithoutSandboxState st job now) =
        ⟨.completed, (custody st).sandbox, false⟩ := by
  unfold completeWithoutSandboxState recordAssignedJob
  split <;> exact ⟨⟨rfl, rfl, rfl⟩, rfl⟩

theorem settled_attempt {stage : String} (known : stage ∈ attemptStages) :
    settledStage stage = false := by
  simp only [attemptStages, List.mem_cons, List.not_mem_nil, or_false] at known
  rcases known with rfl | rfl | rfl | rfl | rfl | rfl | rfl | rfl <;> decide

/-- A failed attempt forgets its sandbox. -/
theorem applyFailure_custody (cfg : Config) (now : Time) (st : RunnerState) (stage : String)
    (err : GoError) :
    SameRequest st (applyFailure cfg now st stage err true) ∧
      ∃ status, (status = .queued ∨ status = .failed) ∧
        custody (applyFailure cfg now st stage err true) = ⟨status, "", settledStage stage⟩ := by
  unfold applyFailure
  dsimp only
  split
  · exact ⟨⟨rfl, rfl, rfl⟩, .queued, .inl rfl, rfl⟩
  · split
    · exact ⟨⟨rfl, rfl, rfl⟩, .queued, .inl rfl, rfl⟩
    · exact ⟨⟨rfl, rfl, rfl⟩, .failed, .inr rfl, rfl⟩

theorem scheduleCleanupRetry_custody {cfg : Config} {now : Time} {st next : RunnerState}
    {err : GoError} (scheduled : scheduleCleanupRetry cfg now st err = some next) :
    SameRequest st next ∧ ∃ settled, custody next = ⟨.stopping, st.sandboxID, settled⟩ := by
  obtain ⟨code, count, rfl⟩ := scheduled_stopping scheduled
  unfold cleanupRetryState
  exact ⟨⟨rfl, rfl, rfl⟩, _, rfl⟩

theorem scheduleStopRetry_custody {cfg : Config} {now : Time} {st next : RunnerState}
    {err : GoError} (scheduled : scheduleStopRetry cfg now st err = some next) :
    SameRequest st next ∧ custody next = ⟨.stopping, st.sandboxID, false⟩ := by
  unfold scheduleStopRetry at scheduled
  dsimp only at scheduled
  split at scheduled
  · cases scheduled
  · cases scheduled
    exact ⟨⟨rfl, rfl, rfl⟩, rfl⟩

theorem stopFinishedState_custody (st : RunnerState) (now : Time) :
    SameRequest st (stopFinishedState st now) ∧ ∃ status settled,
      (status = .completed ∨ status = .failed) ∧
        custody (stopFinishedState st now) = ⟨status, st.sandboxID, settled⟩ := by
  unfold stopFinishedState
  dsimp only
  split
  · exact ⟨⟨rfl, rfl, rfl⟩, .failed, _, .inr rfl, rfl⟩
  · exact ⟨⟨rfl, rfl, rfl⟩, .completed, _, .inl rfl, rfl⟩

/-- After the cleanup an exit has failed, or it is completed and its sandbox
is released. -/
theorem exits_custody {base st : RunnerState} {err cleanup : Option GoError}
    (exits : Exits past base st err cleanup) :
    SameRequest base st ∧ st.sandboxID = base.sandboxID ∧
      (st.status = .failed ∨ (err = none ∧ st.status = .completed ∧
        st.failureStage = base.failureStage ∧ Released past base.sandboxID)) := by
  obtain ⟨_, result, now, -, rfl⟩ := exits.result
  have released := exits.cleaned
  unfold exitCleanedState exitedState
  cases err with
  | some err => cases cleanup <;> exact ⟨⟨rfl, rfl, rfl⟩, rfl, .inl rfl⟩
  | none =>
      cases cleanup with
      | some cleanupErr =>
          dsimp only
          split <;> exact ⟨⟨rfl, rfl, rfl⟩, rfl, .inl rfl⟩
      | none =>
          dsimp only
          split
          · split
            · exact ⟨⟨rfl, rfl, rfl⟩, rfl, .inr ⟨rfl, rfl, rfl, released rfl⟩⟩
            · rename_i failed
              exact ⟨⟨rfl, rfl, rfl⟩, rfl, .inl (not_not.mp failed)⟩
          · exact ⟨⟨rfl, rfl, rfl⟩, rfl, .inl rfl⟩

theorem exitUnregisteredState_custody {base st : RunnerState} {err cleanup : Option GoError}
    (exits : Exits past base st err cleanup) (cleanupErr : GoError) :
    SameRequest base (exitUnregisteredState st err cleanupErr) ∧ ∃ settled,
      custody (exitUnregisteredState st err cleanupErr) = ⟨.failed, base.sandboxID, settled⟩ := by
  obtain ⟨same, sandbox, verdict⟩ := exits_custody exits
  have kept : SameRequest st (exitUnregisteredState st err cleanupErr) := by
    unfold exitUnregisteredState cleanupFailedState
    cases err <;> exact ⟨rfl, rfl, rfl⟩
  refine ⟨same.trans kept, ?_⟩
  cases err with
  | none =>
      refine ⟨true, ?_⟩
      simp only [custody, core, Core.custody, exitUnregisteredState, cleanupFailedState, sandbox]
      rfl
  | some err =>
      rcases verdict with failed | ⟨none, -⟩
      · refine ⟨settledStage st.failureStage, ?_⟩
        simp only [custody, core, Core.custody, exitUnregisteredState, sandbox, failed]
      · cases none

theorem forceFailedState_custody (st : RunnerState) (stage reason message : String) (now : Time) :
    SameRequest st (forceFailedState st stage reason message now) ∧ ∃ settled,
      custody (forceFailedState st stage reason message now) =
        ⟨.failed, st.sandboxID, settled⟩ := by
  unfold forceFailedState
  exact ⟨⟨rfl, rfl, rfl⟩, _, rfl⟩

theorem forceUnregisteredState_same (st : RunnerState) (message : String) (cleanupErr : GoError) :
    SameRequest st (forceUnregisteredState st message cleanupErr) ∧
      (forceUnregisteredState st message cleanupErr).sandboxID = st.sandboxID := by
  unfold forceUnregisteredState
  exact ⟨⟨rfl, rfl, rfl⟩, rfl⟩

theorem keepRunningState_custody (st : RunnerState) (message : String) :
    SameRequest st (keepRunningState st message) ∧
      custody (keepRunningState st message) = { custody st with status := .running } := by
  unfold keepRunningState
  exact ⟨⟨rfl, rfl, rfl⟩, rfl⟩

/-- Every edit of the server is a step of the abstract life cycle, on the same
request. -/
theorem edit_custody {writer : Writer} {base st : RunnerState}
    (edit : Edit server past writer base st) :
    SameRequest base st ∧ Custody.Step (Released past) writer (custody base) (custody st) := by
  have sandbox : (custody base).sandbox = base.sandboxID := rfl
  cases edit with
  | startCreating admission expires =>
      refine ⟨⟨rfl, rfl, rfl⟩, .admitted ?_⟩
      cases admission with
      | uncapped unstopped => exact unstopped
      | capped unstopped => exact unstopped
  | startSnapshot reads service => exact ⟨⟨rfl, rfl, rfl⟩, .kept rfl _⟩
  | startRunning creating started => exact ⟨⟨rfl, rfl, rfl⟩, .placed creating _⟩
  | completeWithoutSandbox unplaced job now =>
      obtain ⟨same, result⟩ := completeWithoutSandboxState_custody base job now
      rw [result]
      exact ⟨same, .unplaced unplaced⟩
  | markInProgress reads unstopped job => exact ⟨⟨rfl, rfl, rfl⟩, .kept rfl _⟩
  | markJobStarted reads unstopped => exact ⟨⟨rfl, rfl, rfl⟩, .kept rfl _⟩
  -- a failed attempt gives its sandbox up, whether it is tried again or not
  | failStart unstopped known err now =>
      obtain ⟨same, status, waits, result⟩ := applyFailure_custody server.cfg now base _ err
      rw [result, settled_attempt known]
      exact ⟨same, .dropped (.inl rfl) _ waits⟩
  | @failSnapshot base service refused err now =>
      obtain ⟨same, status, waits, result⟩ :=
        applyFailure_custody server.cfg now (snapshotState base service) "sandbox_config" err
      rw [result, settled_attempt (by decide)]
      exact ⟨⟨same.id, same.version, same.profile⟩, .dropped (.inl rfl) _ waits⟩
  | exited exits =>
      -- an exit that completes the row has released the sandbox; one that fails it may not have
      obtain ⟨same, kept, failed | ⟨-, completed, stage, released⟩⟩ := exits_custody exits
      · refine ⟨same, ?_⟩
        have result : custody st = ⟨.failed, (custody base).sandbox, settledStage st.failureStage⟩ := by
          simp only [custody, core, Core.custody, kept, failed]
        rw [result]
        exact .exitFailed exits.occupied _
      · refine ⟨same, ?_⟩
        have result : custody st = { custody base with status := .completed } := by
          simp only [custody, core, Core.custody, kept, completed, stage]
        rw [result]
        exact .exitCompleted exits.occupied released
  | exitedUnregistered exits cleanupErr _ =>
      obtain ⟨same, settled, result⟩ := exitUnregisteredState_custody exits cleanupErr
      rw [result]
      exact ⟨same, .exitFailed exits.occupied settled⟩
  | exitedCleanupRetry exits scheduled =>
      obtain ⟨same, kept, -⟩ := exits_custody exits
      obtain ⟨next, settled, result⟩ := scheduleCleanupRetry_custody scheduled
      rw [result, kept]
      exact ⟨same.trans next, .exitRescheduled exits.occupied settled⟩
  | keepRunning busy occupied message =>
      obtain ⟨same, result⟩ := keepRunningState_custody base message
      rw [result]
      exact ⟨same, .stayed occupied⟩
  | recoverQueued reads queued => exact ⟨⟨rfl, rfl, rfl⟩, .kept rfl _⟩
  | recoverReconnected recovers =>
      exact ⟨⟨rfl, rfl, rfl⟩, .reattached recovers.occupied _⟩
  | requeueInterrupted creating => exact ⟨⟨rfl, rfl, rfl⟩, .interrupted creating⟩
  | stopAssignment completed job => exact ⟨⟨rfl, rfl, rfl⟩, .kept rfl _⟩
  | stopStopping locked uncompleted job =>
      obtain ⟨same, result⟩ := stopStoppingState_custody base job
      rw [result]
      exact ⟨same, .marked uncompleted⟩
  | stopRetry stopping scheduled =>
      obtain ⟨same, result⟩ := scheduleStopRetry_custody scheduled
      rw [result]
      exact ⟨same, .rescheduled stopping⟩
  | stopFailed stopping message => exact ⟨⟨rfl, rfl, rfl⟩, .abandoned (.inl rfl) stopping⟩
  | stopCleanupRetry ends scheduled =>
      obtain ⟨same, settled, result⟩ := scheduleCleanupRetry_custody scheduled
      rw [result]
      exact ⟨same, .ended rfl ends.stopping ends.released (.inl rfl) settled⟩
  | stopCleanupFailed ends message =>
      exact ⟨⟨rfl, rfl, rfl⟩, .ended rfl ends.stopping ends.released (.inr (.inr rfl)) _⟩
  | mismatchInspected ended => exact ⟨⟨rfl, rfl, rfl⟩, .kept rfl _⟩
  -- a completed row of another job, or one whose stop has released the sandbox
  | mismatchRequeued ended =>
      refine ⟨⟨rfl, rfl, rfl⟩, .requeued (ended.imp ?_ ?_)⟩
      · intro found
        exact found.completed
      · intro ends
        exact ⟨ends.stopping, ends.released⟩
  | stopMismatched ends now =>
      exact ⟨⟨rfl, rfl, rfl⟩, .ended rfl ends.stopping ends.released (.inr (.inl rfl)) _⟩
  | stopFinished ends now =>
      obtain ⟨same, status, settled, finished, result⟩ := stopFinishedState_custody base now
      rw [result]
      exact ⟨same, .ended rfl ends.stopping ends.released (.inr finished) settled⟩
  | forceStopping unfinished seen stage reason message =>
      exact ⟨⟨rfl, rfl, rfl⟩, .forced unfinished _⟩
  | forceStopFailed stopping message => exact ⟨⟨rfl, rfl, rfl⟩, .abandoned (.inr rfl) stopping⟩
  | forceCleanupRetry ends scheduled =>
      obtain ⟨same, settled, result⟩ := scheduleCleanupRetry_custody scheduled
      rw [result]
      exact ⟨same, .ended rfl ends.stopping ends.released (.inl rfl) settled⟩
  | forceFailed ends stage reason message now =>
      obtain ⟨same, settled, result⟩ := forceFailedState_custody base stage reason message now
      rw [result]
      exact ⟨same, .ended rfl ends.stopping ends.released (.inr (.inr rfl)) settled⟩
  | forceUnregistered ends stage reason message cleanupErr now =>
      obtain ⟨same, settled, result⟩ := forceFailedState_custody
        (forceUnregisteredState base message cleanupErr) stage reason message now
      obtain ⟨marked, kept⟩ := forceUnregisteredState_same base message cleanupErr
      rw [result, kept]
      exact ⟨marked.trans same, .ended rfl ends.stopping ends.released (.inr (.inr rfl)) settled⟩
  | retryOrFail unfinished seen known err now =>
      obtain ⟨same, status, waits, result⟩ := applyFailure_custody server.cfg now base _ err
      rw [result, settled_attempt known]
      exact ⟨same, .dropped (.inr rfl) _ waits⟩
  | deferQueued reads queued owned nextAttempt => exact ⟨⟨rfl, rfl, rfl⟩, .kept rfl _⟩
  | completeReconciled failed now =>
      simp only [recoverableFailure, Bool.and_eq_true, beq_iff_eq] at failed
      exact ⟨⟨rfl, rfl, rfl⟩, .reconciled failed.1 failed.2⟩

end Records

end Runnerd
