import Runnerd.Roles

/-!
Every goroutine plays its role: the watchers, recovery, the loops and the
handlers, function by function, and then task by task. The ids that the
server hands on to the goroutines it starts are ids of rows.
-/

namespace Runnerd

open GoText Interaction Interleaving

section Exits
variable {role : Role} {held : Option String} {id : String} {server : Server}

theorem githubRunnerBusy_steady (st : RunnerState) : Steady role held (githubRunnerBusy st) := by
  unfold githubRunnerBusy
  dsimp only
  split
  · exact follows_return rfl
  · refine follows_call True.intro fun answer _ => ?_
    cases answer with
    | error err => exact follows_return rfl
    | ok runners => exact follows_return rfl

variable (bystander : role.attempts = false)
include bystander

theorem keepRunnerRunningWhenGitHubBusy_steady (named : role.names id) (st : RunnerState)
    (result : ExitResult) (err : Option GoError) :
    Steady role none (keepRunnerRunningWhenGitHubBusy id st result err) := by
  apply steady_seq (githubRunnerBusy_steady st)
  rintro (busyErr | _ | _)
  · exact follows_return rfl
  · exact follows_return rfl
  refine lockedRead_steady named (fun err => follows_return rfl) ?_
  intro inside latest same
  dsimp only
  split
  · exact follows_return rfl
  · split
    · exact follows_return rfl
    · have kept : (keepRunningState latest (busyExitMessage result err)).id = sanitizeID id :=
        (keepRunningState_custody latest _).1.id.trans same
      refine putState_plays inside kept bystander.symm ?_
      rintro (writeErr | _)
      · exact follows_return rfl
      · exact follows_return rfl

theorem exitCleaned_steady (inside : Inside role held id) {st : RunnerState}
    (same : st.id = sanitizeID id) (err cleanup : Option GoError) :
    Steady role held (exitCleaned server st err cleanup) := by
  refine follows_call True.intro fun now _ => ?_
  have cleaned : (exitCleanedState st err cleanup now).id = sanitizeID id := by
    unfold exitCleanedState
    split
    · exact same
    · exact same
    · exact same
    · split
      · exact same
      · exact same
  apply steady_seq (cleanupGitHubRunner_steady _)
  rintro (_ | cleanupErr)
  · exact writeStateOrLog_steady (inside.write cleaned bystander.symm)
  · refine follows_call True.intro fun _ _ => ?_
    split
    · rename_i next scheduled
      have kept : next.id = sanitizeID id :=
        (scheduleCleanupRetry_custody scheduled).1.id.trans cleaned
      exact writeStateOrLog_steady (inside.write kept bystander.symm)
    · have kept : (exitUnregisteredState (exitCleanedState st err cleanup now) err cleanupErr).id =
          sanitizeID id := by
        unfold exitUnregisteredState
        cases err with
        | some err => exact cleaned
        | none => exact cleaned
      exact writeStateOrLog_steady (inside.write kept bystander.symm)

theorem exitLocked_steady (inside : Inside role held id) {st : RunnerState}
    (same : st.id = sanitizeID id) (result : ExitResult) (err : Option GoError) :
    Steady role held (exitLocked server id st result err) := by
  have exited : (exitedState st result err).id = sanitizeID id := by
    unfold exitedState
    split
    · exact same
    · split
      · exact same
      · exact same
  apply steady_seq (cleanupSandboxAfterExit_steady inside.enters _)
  intro cleanup
  exact exitCleaned_steady bystander inside exited err cleanup

theorem runnerExited_steady (named : role.names id) (result : ExitResult) (err : Option GoError) :
    Steady role none (runnerExited server id result err) := by
  have inside := inside_own named
  have leaves : Follows role.protocol (unlockRunner id) (fun _ later => later = none) (some id) :=
    follows_last rfl fun _ _ => rfl
  have ends (st : RunnerState) (same : st.id = sanitizeID id) :
      Follows role.protocol (do
        exitLocked server id st result err
        unlockRunner id : Action Unit) (fun _ later => later = none) (some id) :=
    steady_seq (exitLocked_steady bystander inside same result err) fun _ => leaves
  refine follows_call ⟨rfl, named⟩ fun _ _ => follows_call inside.enters fun answer read => ?_
  cases answer with
  | error readErr => exact leaves
  | ok st =>
      dsimp only
      split
      · exact leaves
      · split
        · refine follows_call rfl fun _ _ => ?_
          apply steady_seq (keepRunnerRunningWhenGitHubBusy_steady bystander named st result err)
          intro kept
          split
          · exact follows_return rfl
          · refine follows_call ⟨rfl, named⟩ fun _ _ => follows_call inside.enters
              fun answer reread => ?_
            cases answer with
            | error readErr => exact leaves
            | ok st =>
                dsimp only
                split
                · exact leaves
                · exact ends st reread
        · exact ends st read

end Exits

section Recovery
variable {role : Role} {held : Option String} {id : String} {server : Server}

theorem workflowJobForRecovery_steady (st : RunnerState) :
    Steady role held (workflowJobForRecovery st) := by
  unfold workflowJobForRecovery
  split
  · exact follows_return rfl
  · refine follows_call True.intro fun answer _ => ?_
    cases answer with
    | error err => exact follows_return rfl
    | ok job => exact follows_return rfl

variable (bystander : role.attempts = false)
include bystander

theorem requeueInterruptedCreation_steady (named : role.names id) (stateVersion : Nat) :
    Steady role none (requeueInterruptedCreation id stateVersion) := by
  refine lockedRead_steady named (fun err => follows_return rfl) ?_
  intro inside st same
  dsimp only
  split
  · exact follows_return rfl
  · refine putState_plays inside same bystander.symm ?_
    rintro (err | _)
    · exact follows_return rfl
    · exact follows_return rfl

theorem reconnect_steady (named : role.names id) (stateVersion : Nat) (result : StartResult) :
    Steady role none (reconnect id stateVersion result) := by
  have inside := inside_own named
  refine follows_call ⟨rfl, named⟩ fun _ _ => ?_
  refine steady_seq ?_ ?_
  · refine follows_call inside.enters fun answer read => ?_
    cases answer with
    | error err => exact follows_return rfl
    | ok latest =>
        dsimp only
        split
        · exact follows_return rfl
        · have kept : (reconnectedState latest result).id = sanitizeID id := read
          refine putState_plays inside kept bystander.symm ?_
          rintro (err | _)
          · exact follows_return rfl
          · exact follows_return rfl
  · rintro ⟨accepted, err⟩
    refine follows_call rfl fun _ _ => follows_call True.intro fun _ _ => ?_
    exact follows_return rfl

theorem recoverFailed_steady {st : RunnerState} (named : role.names st.id) (stateVersion : Nat)
    (job : Option WorkflowJob) (result : StartResult) (err : GoError) :
    Steady role none (recoverFailed server st stateVersion job result err) := by
  have forced (stage reason message : String) : Steady role none (do
      failAndStopRunnerVersion server st.id stateVersion stage reason message
      return none : Action (Option GoError)) :=
    steady_seq (failAndStopRunnerVersion_steady bystander named _ _ _ _) fun _ => follows_return rfl
  have requeues := requeueInterruptedCreation_steady bystander named stateVersion
  refine follows_call True.intro fun _ _ => ?_
  dsimp only
  split
  · exact forced _ _ _
  · split
    · exact requeues
    · split
      · exact forced _ _ _
      · split
        · apply steady_seq (stopSandboxWithTimeout_steady enters_outside _ _)
          rintro (_ | stopErr)
          · exact requeues
          · dsimp only
            split
            · exact requeues
            · exact follows_return rfl
        · exact follows_return rfl

theorem recoverSandbox_steady {st : RunnerState} (named : role.names st.id)
    (stored : sanitizeID st.id = st.id) (stateVersion : Nat) (job : Option WorkflowJob) :
    Steady role none (recoverSandbox server st stateVersion job) := by
  refine follows_call True.intro fun now _ => ?_
  dsimp only
  split
  · exact steady_seq (failAndStopRunnerVersion_steady bystander named _ _ _ _) fun _ =>
      follows_return rfl
  · refine follows_call enters_outside fun answer _ => ?_
    cases answer with
    | error err => exact follows_return rfl
    | ok req =>
        refine follows_call True.intro fun answer _ => ?_
        cases answer with
        | error err => exact follows_return rfl
        | ok service =>
            refine follows_call stored fun answer _ => ?_
            rcases answer with ⟨result, _ | err⟩
            · exact reconnect_steady bystander named stateVersion result
            · exact recoverFailed_steady bystander named stateVersion job result err

theorem recoverActiveRunner_steady {st : RunnerState} (named : role.names st.id)
    (stored : sanitizeID st.id = st.id) :
    Steady role none (recoverActiveRunner server st) := by
  apply steady_seq (workflowJobForRecovery_steady st)
  rintro (err | _ | job)
  · exact recoverSandbox_steady bystander named stored _ _
  · exact recoverSandbox_steady bystander named stored _ _
  dsimp only
  split
  · apply follows_seq
    refine follows_mono ?_ (stopRunner_plays bystander named job)
    rintro (err | ⟨latest, stopped⟩) _ ⟨rfl, same⟩
    · exact follows_return rfl
    · have kept : latest.id = st.id := Eq.trans same stored
      dsimp only
      split
      · exact follows_return rfl
      · rw [← kept] at named stored
        exact recoverSandbox_steady bystander named stored _ _
  · exact recoverSandbox_steady bystander named stored _ _

theorem recoverRunner_steady (named : role.names id) :
    Steady role none (recoverRunner server id) := by
  have inside := inside_own named
  have leaves (answer : Option GoError) : Follows role.protocol (do
      unlockRunner id
      return answer : Action (Option GoError)) (fun _ later => later = none) (some id) :=
    follows_call rfl fun _ _ => follows_return rfl
  refine follows_call ⟨rfl, named⟩ fun _ _ => follows_call inside.enters fun answer read => ?_
  cases answer with
  | error err => exact leaves _
  | ok st =>
      have same : st.id = sanitizeID id := read
      have active : Follows role.protocol (do
          unlockRunner id
          recoverActiveRunner server st : Action (Option GoError)) (fun _ later => later = none)
          (some id) := by
        refine follows_call rfl fun _ _ => recoverActiveRunner_steady bystander ?_ ?_
        · rw [same]
          exact role.closed id named
        · rw [same, sanitizeID_idem]
      dsimp only
      split
      · exact leaves _
      · exact leaves _
      · refine putState_plays inside same bystander.symm ?_
        rintro (err | _)
        · exact leaves _
        · exact leaves _
      · refine follows_call rfl fun _ _ => follows_seq ?_
        refine follows_mono ?_ (stopRunner_plays bystander named {})
        rintro (err | _) _ ⟨rfl, _⟩
        · exact follows_return rfl
        · exact follows_return rfl
      · exact active
      · exact active

end Recovery

section Loops
variable {role : Role} {server : Server}

theorem processQueuedRequests_steady {held : Option String} (rounds : Nat) :
    Steady role held (processQueuedRequests server rounds) := by
  induction rounds with
  | zero => exact follows_return rfl
  | succ rounds ih =>
      refine follows_call True.intro fun acquired _ => ?_
      split
      · refine follows_call True.intro fun now _ => follows_call True.intro fun answer claims => ?_
        rcases answer with err | _ | ⟨req, claimed⟩
        · exact follows_last True.intro fun _ _ => rfl
        · exact follows_last True.intro fun _ _ => rfl
        · exact follows_call claims fun _ _ => ih
      · exact follows_return rfl

variable (bystander : role.attempts = false) {st : RunnerState} (named : role.names st.id)
include bystander named

theorem sweepTimeout_steady (now : Time) : Steady role none (sweepTimeout server now st) := by
  unfold sweepTimeout
  split
  · split
    · exact retryOrFail_steady bystander named _ _
    · exact follows_return rfl
  · split
    · exact failAndStopRunnerVersion_steady bystander named _ _ _ _
    · exact follows_return rfl
  · split
    · exact stopIfExists_steady bystander named _
    · exact follows_return rfl
  · exact follows_return rfl

theorem sweepIdle_steady : Steady role none (sweepIdle server st) := by
  apply steady_seq (originalWorkflowJobQueued_steady st)
  rintro (err | _ | _)
  · exact follows_return rfl
  · apply steady_seq (githubRunnerBusy_steady st)
    rintro (err | _ | _)
    · exact follows_return rfl
    · exact stopIfExists_steady bystander named _
    · exact markRunnerJobStarted_steady bystander named
  · exact follows_return rfl

theorem reconcileStopping_steady : Steady role none (reconcileStopping server st) := by
  refine follows_call True.intro fun now _ => ?_
  split
  · refine follows_call True.intro fun now _ => ?_
    split
    · exact stopIfExists_steady bystander named _
    · exact follows_return rfl
  · exact follows_return rfl

theorem reconcileMismatched_steady : Steady role none (reconcileMismatched st) := by
  apply follows_seq
  have read : Follows role.protocol (withRunnerLock st.id (fetchState st.id))
      (fun answer later => later = none ∧ storedID (.readState st.id) answer) none := by
    refine withRunnerLock_plays named (follows_last (inside_own named).enters ?_)
    intro answer found
    exact ⟨rfl, found⟩
  refine follows_mono ?_ read
  rintro (err | current) _ ⟨rfl, found⟩
  · exact follows_return rfl
  have own : role.names current.id := by
    have same : current.id = sanitizeID st.id := found
    rw [same]
    exact role.closed _ named
  dsimp only
  split
  · exact follows_return rfl
  · apply steady_seq (originalWorkflowJobQueued_steady current)
    intro queued
    refine lockedRead_steady own (fun err => follows_return rfl) ?_
    intro inside latest same
    dsimp only
    split
    · exact follows_return rfl
    · apply follows_seq
      refine follows_mono ?_ (requeueMismatchedWorkflowJob_plays bystander inside same _)
      rintro _ _ ⟨rfl, _⟩
      exact follows_return rfl

theorem completeIfWorkflowJobCompleted_steady :
    Steady role none (completeIfWorkflowJobCompleted st.id) := by
  have read : Steady role none (withRunnerLock st.id (fetchState st.id)) :=
    withRunnerLock_steady named (follows_last (inside_own named).enters fun _ _ => rfl)
  apply steady_seq read
  rintro (err | found)
  · exact follows_return rfl
  dsimp only
  split
  · exact follows_return rfl
  · split
    · exact follows_return rfl
    · refine follows_call True.intro fun answer _ => ?_
      cases answer with
      | error err => exact follows_return rfl
      | ok job =>
          dsimp only
          split
          · exact follows_return rfl
          · refine lockedRead_steady named (fun err => follows_return rfl) ?_
            intro inside latest same
            dsimp only
            split
            · exact follows_return rfl
            · split
              · exact follows_return rfl
              · refine follows_call True.intro fun now _ => ?_
                refine putState_plays inside same bystander.symm ?_
                rintro (err | _)
                · exact follows_return rfl
                · exact follows_return rfl

end Loops

section Listings
variable {role : Role} {server : Server} (bystander : role.attempts = false)
  (stored : ∀ id, sanitizeID id = id → role.names id)
include bystander stored

theorem sweepOnce_steady : Steady role none (sweepOnce server) := by
  refine follows_call True.intro fun answer listed => ?_
  cases answer with
  | error err => exact follows_return rfl
  | ok states =>
      refine follows_call True.intro fun now _ => ?_
      refine steady_seq (follows_each states fun st member => ?_) fun _ => ?_
      · exact sweepTimeout_steady bystander (stored _ (listed st member)) now
      · refine follows_each _ fun st member => ?_
        exact sweepIdle_steady bystander (stored _ (listed st (List.mem_of_mem_filter member)))

theorem reconcileOnce_steady (rounds : Nat) : Steady role none (reconcileOnce server rounds) := by
  have mismatched : Steady role none reconcileMismatchedCompletedJobs := by
    refine follows_call True.intro fun answer listed => ?_
    cases answer with
    | error err => exact follows_return rfl
    | ok states =>
        refine follows_each states fun st member => ?_
        exact reconcileMismatched_steady bystander (stored _ (listed st member))
  have completed : Steady role none reconcileCompletedWorkflowJobs := by
    refine follows_call True.intro fun answer listed => ?_
    cases answer with
    | error err => exact follows_return rfl
    | ok states =>
        refine follows_each states fun st member => ?_
        exact steady_seq (completeIfWorkflowJobCompleted_steady bystander
          (stored _ (listed st member))) fun _ => follows_return rfl
  apply steady_seq (processQueuedRequests_steady rounds)
  intro _
  refine follows_call True.intro fun answer listed => ?_
  cases answer with
  | error err => exact follows_return rfl
  | ok states =>
      refine steady_seq (follows_each _ fun st member => ?_) fun _ => ?_
      · exact reconcileStopping_steady bystander
          (stored _ (listed st (List.mem_of_mem_filter member)))
      · exact steady_seq mismatched fun _ => completed

end Listings

section Webhooks
variable {role : Role} {server : Server}

theorem enqueueRunnerRequest_steady (req : RunnerRequest) (links : GitHubContext) :
    Steady role none (enqueueRunnerRequest req links) := by
  refine follows_call True.intro fun _ _ => follows_call enters_outside fun answer _ => ?_
  cases answer with
  | ok st => exact follows_call True.intro fun _ _ => follows_return rfl
  | error err =>
      refine follows_call True.intro fun answer _ => follows_call True.intro fun _ _ => ?_
      cases answer with
      | error err => exact follows_return rfl
      | ok created => exact follows_return rfl

theorem rejectAdmission_steady {held : Option String} (req : RunnerRequest) (links : GitHubContext)
    (reason : String) : Steady role held (rejectAdmission req links reason) := by
  refine follows_call True.intro fun answer _ => ?_
  cases answer with
  | error err => exact follows_return rfl
  | ok created => exact follows_return rfl

theorem enqueueWorkflowJob_steady (repository : String) (installationID : Int)
    (job : WorkflowJob) (links : GitHubContext) :
    Steady role none (enqueueWorkflowJob server repository installationID job links) := by
  unfold enqueueWorkflowJob
  dsimp only
  split
  · exact steady_seq (rejectAdmission_steady _ links _) fun _ => follows_return rfl
  · refine follows_call True.intro fun answer _ => ?_
    rcases answer with err | _ | profile
    · exact follows_return rfl
    · exact steady_seq (rejectAdmission_steady _ links _) fun _ => follows_return rfl
    · exact enqueueRunnerRequest_steady _ links

theorem handleWorkflowRunWebhook_steady (event : WorkflowRunEvent) :
    Steady role none (handleWorkflowRunWebhook server event) := by
  unfold handleWorkflowRunWebhook
  split
  · exact follows_return rfl
  · refine follows_call True.intro fun answer _ => ?_
    cases answer with
    | error err => exact follows_return rfl
    | ok jobs =>
        refine follows_each jobs fun job _ => ?_
        split
        · exact follows_return rfl
        · exact steady_seq (enqueueWorkflowJob_steady _ _ job _) fun _ => follows_return rfl

theorem handleCreateRunner_steady (input : ManualCreateRequest) (newID : String) :
    Steady role none (handleCreateRunner server input newID) := by
  have enqueues (req : RunnerRequest) : Steady role none (do
      let _ ← enqueueRunnerRequest req {} : Action Unit) :=
    steady_seq (enqueueRunnerRequest_steady req {}) fun _ => follows_return rfl
  unfold handleCreateRunner
  dsimp only
  split
  · exact follows_return rfl
  split
  · exact follows_return rfl
  split
  · split
    · exact follows_return rfl
    · refine follows_call True.intro fun answer _ => ?_
      rcases answer with err | _ | profile
      · exact follows_return rfl
      · exact follows_return rfl
      · exact enqueues _
  · refine follows_call True.intro fun answer _ => ?_
    cases answer with
    | error err => exact follows_return rfl
    | ok profile =>
        dsimp only
        split
        · exact follows_return rfl
        · exact enqueues _

variable (stored : ∀ id, sanitizeID id = id → role.names id)
include stored

theorem completedWorkflowJobStopID_plays {job : WorkflowJob}
    (spelled : role.names (trimPrefix job.runnerName "e2b-")) :
    Follows role.protocol (completedWorkflowJobStopID job)
      (fun id later => later = none ∧ (id = "" ∨ role.names id)) none := by
  unfold completedWorkflowJobStopID
  split
  · exact follows_return ⟨rfl, .inr spelled⟩
  · split
    · exact follows_return ⟨rfl, .inl rfl⟩
    · refine follows_call enters_outside fun answer _ => ?_
      cases answer with
      | error err => exact follows_return ⟨rfl, .inl rfl⟩
      | ok st => exact follows_return ⟨rfl, .inr (stored _ (sanitizeID_int job.id))⟩

theorem handleWorkflowJob_steady (bystander : role.attempts = false) {event : WorkflowJobEvent}
    (spelled : role.names (trimPrefix event.workflowJob.runnerName "e2b-")) :
    Steady role none (handleWorkflowJob server event) := by
  unfold handleWorkflowJob
  split
  · exact steady_seq (enqueueWorkflowJob_steady _ _ _ _) fun _ => follows_return rfl
  · apply follows_seq
    refine follows_mono ?_ (completedWorkflowJobStopID_plays stored spelled)
    rintro startID _ ⟨rfl, known⟩
    split
    · exact follows_return rfl
    · rename_i present
      have named := known.resolve_left present
      exact steady_seq (markWorkflowJobInProgress_steady bystander named _) fun _ =>
        follows_return rfl
  · apply follows_seq
    refine follows_mono ?_ (completedWorkflowJobStopID_plays stored spelled)
    rintro stopID _ ⟨rfl, known⟩
    split
    · exact follows_return rfl
    · rename_i present
      have named := known.resolve_left present
      apply follows_seq
      refine follows_mono ?_ (stopRunner_plays bystander named event.workflowJob)
      rintro (err | ⟨st, _ | _⟩) _ ⟨rfl, _⟩
      · exact follows_return rfl
      · exact follows_return rfl
      · exact follows_last True.intro fun _ _ => rfl
  · exact follows_return rfl

end Webhooks

section Tasks

/-- The ids that reach a goroutine as someone outside spelled them. -/
def Task.spelled : Task → List String
  | .workflowJob event => [trimPrefix event.workflowJob.runnerName "e2b-"]
  | .deleteRunner id | .runnerStdout id _ | .recover id => [id]
  | _ => []

/-- An attempt knows the row it was claimed for. -/
def attemptRole (claimed : RunnerState) : Role where
  names id := id = sanitizeID claimed.id
  closed := by
    rintro _ rfl
    exact sanitizeID_idem _
  attempts := true

/-- The others know every row by its stored id, and what was spelled to them. -/
def bystanderRole (spelled : List String) : Role where
  names id := sanitizeID id = id ∨ id ∈ spelled
  closed id _ := .inl (sanitizeID_idem id)
  attempts := false

def Task.role : Task → Role
  | .startRunner claimed => attemptRole claimed
  | task => bystanderRole task.spelled

/-- Ids that the server hands on are stored ids. -/
def Task.fits (alike : String → Prop) : Task → Prop
  | .startRunner claimed => sanitizeID claimed.id = claimed.id
  | .exitWatch id _ _ | .recoveredExitWatch id _ _ => sanitizeID id = id
  | task => ∀ id ∈ task.spelled, alike id

theorem listActiveStates_row {table : RequestTable} {st : RunnerState}
    (member : st ∈ listActiveStates table) :
    ∃ row ∈ table.rows, isActiveStatus row.status = true ∧ st = listed row := by
  obtain ⟨row, sorted, rfl⟩ := List.mem_map.mp member
  rw [List.mem_insertionSort, List.mem_filter] at sorted
  exact ⟨row, sorted.1, sorted.2, rfl⟩

theorem recentlyUpdated_row {limit : Nat} {records : List RunnerRequestRecord} {st : RunnerState}
    (member : st ∈ recentlyUpdated limit records) : ∃ row ∈ records, st = listed row := by
  obtain ⟨row, taken, rfl⟩ := List.mem_map.mp member
  have sorted := List.mem_of_mem_take taken
  rw [List.mem_insertionSort] at sorted
  exact ⟨row, sorted, rfl⟩

theorem storedID_answered {server : Server} {tid : Nat} {choice : Choice}
    {state after : ServerState} {op : Op} {resp : op.Resp}
    (answer : respond server tid choice state op = some (resp, after)) : storedID op resp := by
  have stored := state.table.sanitized
  cases op with
  | readState id =>
      cases resp with
      | error err => trivial
      | ok base =>
          obtain ⟨_, row, _, rfl, same⟩ := readState_answered answer
          exact same
  | readRequest id =>
      cases resp with
      | error err => trivial
      | ok req =>
          obtain ⟨_, row, _, rfl, same⟩ := readRequest_answered answer
          exact same
  | claimNextRunnable workerID at_ leaseTTL =>
      simp only [respond] at answer
      rcases resp with err | _ | ⟨req, claimed⟩
      · trivial
      · trivial
      · rcases stored_cases answer with ⟨err, failed, _⟩ | ⟨table, ran, _⟩
        · cases failed
        · unfold claimNextRunnable at ran
          dsimp only at ran
          split at ran
          · cases ran
          · split at ran
            · cases ran
            · rename_i row first
              cases ran
              exact stored row (List.mem_of_mem_filter (firstQueued_mem first))
  | listActiveStates =>
      simp only [respond] at answer
      rcases resp with err | states
      · trivial
      · obtain ⟨_, ⟨err, failed⟩ | read⟩ := loaded_cases answer
        · cases failed
        · cases read
          intro st member
          obtain ⟨row, here, _, rfl⟩ := listActiveStates_row member
          exact stored row here
  | listMismatchedCompletedStates limit =>
      simp only [respond] at answer
      rcases resp with err | states
      · trivial
      · obtain ⟨_, ⟨err, failed⟩ | read⟩ := loaded_cases answer
        · cases failed
        · cases read
          intro st member
          obtain ⟨row, here, rfl⟩ := recentlyUpdated_row member
          exact stored row (List.mem_of_mem_filter here)
  | listFailedWorkflowJobStates limit =>
      simp only [respond] at answer
      rcases resp with err | states
      · trivial
      · obtain ⟨_, ⟨err, failed⟩ | read⟩ := loaded_cases answer
        · cases failed
        · cases read
          intro st member
          obtain ⟨row, here, rfl⟩ := recentlyUpdated_row member
          exact stored row (List.mem_of_mem_filter here)
  | _ => trivial

variable (server : Server)

theorem taskBody_follows (alike : String → Prop) (task : Task) (fits : task.fits alike) :
    Follows task.role.protocol (taskBody server task) (fun _ _ => True) none := by
  have anyhow {program : Action Unit} (steady : Steady task.role none program) :
      Follows task.role.protocol program (fun _ _ => True) none :=
    follows_mono (fun _ _ _ => True.intro) steady
  have stored (spelled : List String) (id : String) (same : sanitizeID id = id) :
      (bystanderRole spelled).names id := .inl same
  have given (id : String) : (bystanderRole [id]).names id := .inr List.mem_cons_self
  cases task with
  | workflowJob event => exact anyhow (handleWorkflowJob_steady (stored _) rfl (given _))
  | workflowRun event => exact anyhow (handleWorkflowRunWebhook_steady event)
  | createRunner input newID => exact anyhow (handleCreateRunner_steady input newID)
  | retryRunner id =>
      exact follows_call True.intro fun _ _ => follows_call True.intro fun _ _ =>
        follows_return True.intro
  | deleteRunner id =>
      apply follows_seq
      refine follows_mono ?_ (stopRunner_plays rfl (given id) {})
      intro _ _ _
      exact follows_return True.intro
  | runnerStdout id text => exact anyhow (appendRunnerStdout_steady rfl (given id) text)
  | processQueuedRequests rounds => exact anyhow (processQueuedRequests_steady rounds)
  | sweepOnce => exact anyhow (sweepOnce_steady rfl (stored _))
  | reconcileOnce rounds => exact anyhow (reconcileOnce_steady rfl (stored _) rounds)
  | recover id =>
      exact steady_seq (recoverRunner_steady rfl (given id)) fun _ => follows_return True.intro
  | startRunner claimed =>
      have own : (attemptRole claimed).names claimed.id := Eq.symm fits
      exact steady_seq (startRunner_steady rfl own _) fun _ =>
        follows_last True.intro fun _ _ => True.intro
  | exitWatch id sandboxID owner =>
      refine follows_call True.intro fun _ _ => ?_
      refine steady_seq (runnerExited_steady rfl (stored _ id fits) _ _) fun _ => ?_
      exact follows_last True.intro fun _ _ => True.intro
  | recoveredExitWatch id sandboxID owner =>
      refine follows_call True.intro fun _ _ => follows_call True.intro fun accepted _ => ?_
      split
      · exact anyhow (runnerExited_steady rfl (stored _ id fits) _ _)
      · exact follows_return True.intro

/-- Every goroutine plays the role of its task. -/
theorem roles_fair (alike : String → Prop) :
    Machine.Fair (machine server) (fun task => task.role.protocol) none (Task.fits alike) where
  tasks task fits := taskBody_follows server alike task fits
  answers answer := storedID_answered answer
  spawns := by
    intro task ghost op tid resp _ permitted spawned member
    cases op with
    | goStartRunner claimed =>
        cases List.mem_singleton.mp member
        exact permitted
    | startRunner service input =>
        cases resp with
        | error err => cases member
        | ok result =>
            cases List.mem_singleton.mp member
            exact permitted.2
    | recoverRunner service input =>
        rcases resp with ⟨result, _ | err⟩
        · cases List.mem_singleton.mp member
          exact permitted
        · cases member
    | _ => cases member

theorem roles_reachable {alike : String → Prop} {table : RequestTable} {world : RunnerWorld}
    {condition : RunnerWorld → RunnerMove → Prop}
    (enters : ∀ world task, condition world (.start task) → ∀ id ∈ task.spelled, alike id)
    (reaches : (machine server).Reaches condition (opened table) world) :
    Machine.Ruled (fun task => task.role.protocol) none (Task.fits alike) world := by
  refine Machine.ruled_reachable (roles_fair server alike) ⟨?_, ?_, ?_⟩ ?_ reaches
  · intro tid thread live
    cases live
  · intro tid thread live
    cases live
  · intro tid thread live
    cases live
  · intro world task meets entered
    cases task with
    | startRunner claimed => cases entered
    | exitWatch id sandboxID owner => cases entered
    | recoveredExitWatch id sandboxID owner => cases entered
    | _ => exact enters world _ meets

end Tasks

end Runnerd
